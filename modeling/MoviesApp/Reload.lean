/-! Views that ask a data source for what they show. A reload only marks the view; the
next layout asks again. What the view shows is up to date while no reload is pending. -/
namespace Reload

structure View (V : Type) where
  pending : Bool
  shown : V

namespace View
variable {V : Type} {view : View V} {P Q : V → Prop}

def reloadData (view : View V) : View V := { view with pending := true }

/-- The layout shows what the data source answers. -/
def layout (answer : V) : View V := ⟨false, answer⟩

/-- Unless a reload is pending, what is shown meets the condition. -/
def Shows (view : View V) (P : V → Prop) : Prop := view.pending = false → P view.shown

theorem shows_reloadData : view.reloadData.Shows P := nofun

theorem shows_layout {answer : V} (holds : P answer) : (layout answer).Shows P := fun _ => holds

theorem Shows.mono (shows_ : view.Shows P) (implies : P view.shown → Q view.shown) : view.Shows Q :=
  fun laidOut => implies (shows_ laidOut)

end View
end Reload
