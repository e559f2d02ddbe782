import Sha3.Session.Steps
import Sha3.Sponge

/-! Sessions of sponges. -/

namespace Sha3.Sponge

inductive Op where
  | look
  | variant
  | debug
  | reset
  | zeroize
  | absorb (block : Bytes)
  | extract (block : Bytes) (validLength : Nat)
  | finalize (block : Bytes) (validLength : Nat) (output : Bytes)

inductive Reply where
  | done
  | variant (v : Variant)
  | debug (line lines : String)
  | extracted (digest : Option Bytes) (block : Bytes)
  | finalized (digest : Option Bytes) (block output : Bytes)

/-- The outcome of a finalization: the sponge stays, and the reply shows the caller's buffers. -/
def outcomeOfFrame {α : Type} (c : Call Frame α) (f : Frame) (reply : Option α → Frame → Reply) :
    Outcome Sponge Reply :=
  match c ⟨f, []⟩ with
  | .ok a o => ⟨some o.object.sponge, reply (some a) o.object, none, o.log⟩
  | .error e o => ⟨some o.object.sponge, reply none o.object, some e, o.log⟩

def perform (s : Sponge) : Op → Outcome Sponge Reply
  | .look => .ofLook s .done
  | .variant => .ofLook s (.variant s.variant)
  | .debug => .ofLook s (.debug s.debug s.debugLines)
  | .reset => .ofCall Sponge.reset s fun _ => .done
  | .zeroize => .ofCall Sponge.zeroize s fun _ => .done
  | .absorb block => .ofCall (Sponge.absorb block) s fun _ => .done
  | .extract block n =>
    outcomeOfFrame (Frame.extract n) ⟨s, block, []⟩ fun digest f => .extracted digest f.block
  | .finalize block n output =>
    outcomeOfFrame (Frame.finalize n) ⟨s, block, output⟩ fun done f =>
      .finalized (done.map fun _ => f.output) f.block f.output

/-- Sponges as objects of a session. -/
def kind : Kind Sponge Unit Op Reply where
  create v _ := create v
  copy := copy
  perform op s := some (s.perform op)

end Sha3.Sponge
