import Sha3.Hasher
import Sha3.Session.Steps

/-! Sessions of hashers of whole blocks. Data for an update must divide into blocks. -/

namespace Sha3.BlockHasher

inductive Op where
  | look
  | variant
  | debug
  | algorithmName
  | reset
  | update (data : Bytes)
  | finalize (tail : Bytes)
  | digestAfter (data : Bytes)

inductive Reply where
  | done
  | variant (v : Variant)
  | debug (line sponge : String)
  | algorithmName (name : String)
  | digest (d : Option Bytes)

def perform (h : BlockHasher) : Op → Option (Outcome BlockHasher Reply)
  | .look => some (.ofLook h .done)
  | .variant => some (.ofLook h (.variant h.sponge.variant))
  | .debug => some (.ofLook h (.debug h.debug h.sponge.debug))
  | .algorithmName => some (.ofLook h (.algorithmName h.algorithmName))
  | .reset => some (.ofCall BlockHasher.reset h fun _ => .done)
  | .update data =>
    match split h.params.blockSize data with
    | (blocks, []) => some (.ofCall (BlockHasher.update blocks) h fun _ => .done)
    | (_, _ :: _) => none
  | .finalize tail => some (.ofCall (BlockHasher.finalize tail) h .digest)
  | .digestAfter data => some (.ofCall (h.digestAfter data) h .digest)

/-- Hashers of whole blocks as objects of a session. -/
def kind : Kind BlockHasher Unit Op Reply where
  create v _ := create v
  copy := copy
  perform op h := h.perform op

end Sha3.BlockHasher
