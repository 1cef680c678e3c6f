import BrightScript.Proofs.Frames

/-!
# Methods are bound to objects of their component

A value is sound if every method in it is bound to an object of the component that the method
belongs to, and every box in it holds a value that can be put in a box. Soundness is admissible: the
language makes sound values out of sound ones. A new session stores sound values only.
-/

namespace BrightScript

mutual

/-- Methods are bound to objects of their component, and boxes hold values that can be boxed. -/
def Value.Sound : Value → Prop
  | .boxed v => v.isBoxable = true ∧ v.Sound
  | .function c => c.Sound
  | _ => True

def Callable.Sound : Callable → Prop
  | ⟨_, target, _⟩ => target.Sound

def Target.Sound : Target → Prop
  | .method m receiver => receiver.component? = some m.component ∧ receiver.Sound
  | _ => True

end

theorem Value.sound_of_isPlain {v : Value} (h : v.isPlain = true) : v.Sound := by
  cases v with
  | function | boxed => cases h
  | _ => trivial

theorem Admissible.sound : Admissible Value.Sound where
  plain := Value.sound_of_isPlain
  procedure := True.intro
  builtin := True.intro
  method hm hr := ⟨hm, hr⟩
  receiver h := h.2
  context h := h
  boxed hb hv := ⟨hb, hv⟩
  content h := h.2

end BrightScript
