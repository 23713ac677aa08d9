import Mathlib.Data.List.Basic

/-! A value that one side of a line knows from the reports of the other: what it will know once all that is on its
    way has arrived. -/

namespace CoreSplitter
namespace Reports
variable {φ ν : Type} {report : φ → Option ν} {fs : List φ} {f : φ} {known : Option ν}

/-- What is known of the value once `fs` has arrived: what the last report says, or what is known now. -/
def settled (report : φ → Option ν) (fs : List φ) (known : Option ν) : Option ν :=
  fs.foldl (fun known f => (report f).or known) known

@[simp] theorem settled_nil : settled report [] known = known := rfl

/-- The next frame arrives. -/
@[simp] theorem settled_cons : settled report (f :: fs) known = settled report fs ((report f).or known) := rfl

/-- A frame is sent. -/
theorem settled_concat : settled report (fs ++ [f]) known = (report f).or (settled report fs known) := by
  rw [settled, List.foldl_append]
  rfl

end Reports
end CoreSplitter
