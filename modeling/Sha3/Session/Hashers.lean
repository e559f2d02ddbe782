import Sha3.Hasher
import Sha3.Session.Steps

/-! Sessions of streaming hashers. A hasher may be made with the beginning of its message, and one
    that is finalized without being cleared leaves its slot. -/

namespace Sha3.Hasher

inductive Op where
  | look
  | debug
  | outputSize
  | reset
  | update (piece : Bytes)
  | write (piece : Bytes)
  | finalize
  | finalizeReset
  | finalizeOver (output : Bytes)

inductive Reply where
  | done
  | debug (line : String)
  | outputSize (n : Nat)
  | written (n : Option Nat)
  | digest (d : Option Bytes)
  | output (buffer : Bytes)

/-- Makes a hasher and feeds it the beginning of its message. -/
def createWith (v : Variant) (start : Bytes) : Call Unit Hasher := do
  let h ← create v
  Call.aside h do
    update start
    Call.current

def perform (h : Hasher) : Op → Outcome Hasher Reply
  | .look => .ofLook h .done
  | .debug => .ofLook h (.debug h.debug)
  | .outputSize => .ofLook h (.outputSize h.outputSize)
  | .reset => .ofCall Hasher.reset h fun _ => .done
  | .update piece => .ofCall (Hasher.update piece) h fun _ => .done
  | .write piece => .ofCall (Hasher.write piece) h .written
  | .finalize => { Outcome.ofCall Hasher.finalize h Reply.digest with object := none }
  | .finalizeReset => .ofCall Hasher.finalizeReset h .digest
  | .finalizeOver output =>
    .ofCall (Hasher.finalizeOver output) h fun digest => .output (digest.getD output)

/-- Streaming hashers as objects of a session. -/
def kind : Kind Hasher Bytes Op Reply where
  create := createWith
  copy := copy
  perform op h := some (h.perform op)

end Sha3.Hasher
