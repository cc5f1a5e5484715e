/-!
# Partition points

A test on positions that holds up to some position and fails from there on splits a range in two.
`bisect` finds where by halving, and `lt_bisect_iff` says that it does.
-/

namespace JavaClass

/-- The first position of `[low, high)` at which `holds` fails, or `high` if there is none, for a
test that fails from some position on. -/
def bisect (holds : Nat → Bool) (low high : Nat) : Nat :=
  if low < high then
    let mid := (low + high) / 2
    if holds mid then bisect holds (mid + 1) high else bisect holds low mid
  else low
termination_by high - low

/-- The partition point lies in the range. -/
theorem bisect_mem (holds : Nat → Bool) (low high : Nat) (h : low ≤ high) :
    low ≤ bisect holds low high ∧ bisect holds low high ≤ high := by
  fun_induction bisect holds low high with
  | case1 low high hlt mid hmid ih => have := ih (by omega); omega
  | case2 low high hlt mid hmid ih => have := ih (by omega); omega
  | case3 low high hlt => omega

/-- A test that fails from some position on holds exactly before the partition point. -/
theorem lt_bisect_iff {holds : Nat → Bool} {low high : Nat}
    (downward : ∀ i j, i ≤ j → holds j = true → holds i = true) {i : Nat} (hlow : low ≤ i)
    (hhigh : i < high) : i < bisect holds low high ↔ holds i = true := by
  fun_induction bisect holds low high with
  | case1 low high hlt mid hmid ih =>
    -- The test holds at the middle, so it holds up to there, and the point is behind the middle.
    by_cases hi : mid + 1 ≤ i
    · exact ih hi hhigh
    · have := bisect_mem holds (mid + 1) high (by omega)
      exact ⟨fun _ => downward i mid (by omega) hmid, fun _ => by omega⟩
  | case2 low high hlt mid hmid ih =>
    -- The test fails at the middle, so it fails from there on, and the point is not behind it.
    by_cases hi : i < mid
    · exact ih hlow hi
    · have := bisect_mem holds low mid (by omega)
      refine ⟨fun _ => by omega, fun hi' => absurd (downward mid i (by omega) hi') hmid⟩
  | case3 low high hlt => omega

end JavaClass
