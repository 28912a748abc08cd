/-!
# Cadence.Registry — who is subscribed

The registry lists its members in the order in which they joined.  Nobody is in it twice.
-/

namespace Cadence

/-- The members of a set of subscribers, oldest first. -/
structure Registry (ι : Type) where
  members : List ι := []
  nodup : members.Nodup := by simp

namespace Registry

variable {ι : Type} [DecidableEq ι]

/-- Adds a member at the end; answers whether it was absent. -/
def add (r : Registry ι) (i : ι) : Bool × Registry ι :=
  if h : i ∈ r.members then (false, r)
  else
    (true, ⟨r.members ++ [i], by
      refine List.nodup_append.2 ⟨r.nodup, by simp, fun a ha b hb => ?_⟩
      rintro rfl
      exact h (by simpa using List.mem_singleton.1 hb ▸ ha)⟩)

/-- Removes a member; answers whether it was present. -/
def remove (r : Registry ι) (i : ι) : Bool × Registry ι :=
  (i ∈ r.members, ⟨r.members.filter (· ≠ i), r.nodup.filter _⟩)

/-- The number of members. -/
def size (r : Registry ι) : Nat := r.members.length

end Registry

end Cadence
