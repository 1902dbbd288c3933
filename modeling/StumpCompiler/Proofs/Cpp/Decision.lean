import StumpCompiler.Model
import StumpCompiler.Proofs.Cpp.Evaluation

/-! What a model decides: every class has a score, the sum over the hypotheses of their weighted
votes, and the strict scan from slot zero keeps one slot. If `<` is a strict total order it is the
lowest of the slots with the largest score. -/

namespace StumpCompiler

open Cpp (Numbers)

variable {K : Type} (N : Numbers K) (values : Feature → K)

/-- What a hypothesis adds to the score of a class that has this vote of it. -/
def Hypothesis.contribution (h : Hypothesis) (vote : String) : K :=
  N.mul (N.literal h.alpha)
    (if N.less (N.literal h.threshold) (values h.feature.feature) then N.literal vote
    else N.neg (N.literal vote))

/-- The sum over hypotheses, from left to right, in a slot for which each of them has a vote. -/
def scoreFrom (slot : ℕ) (sum : K) (hs : List Hypothesis) : K :=
  hs.foldl (fun sum h => N.add sum (h.contribution N values (h.votes.getD slot ""))) sum

def Model.score (m : Model) (slot : ℕ) : K :=
  scoreFrom N values slot N.zero m.hypotheses

/-- The slot that is kept when those below `n` are scanned in order. -/
def bestBelow (score : ℕ → K) : ℕ → ℕ
  | 0 => 0
  | n + 1 => if N.less (score (bestBelow score n)) (score n) then n else bestBelow score n

def Model.best (m : Model) : ℕ :=
  bestBelow N (m.score N values) m.classCount

/-- No slot below `n` has a larger score than `slot`, and those below `slot` have smaller ones. -/
structure IsLowestMaximum (score : ℕ → K) (n slot : ℕ) : Prop where
  lt : slot < n
  maximal : ∀ k < n, ¬ N.less (score slot) (score k)
  lowest : ∀ k < slot, N.less (score k) (score slot)

variable {N} {score : ℕ → K} {n : ℕ}

theorem bestBelow_lt (pos : 0 < n) : bestBelow N score n < n := by
  induction n with
  | zero => omega
  | succ n ih =>
    rw [bestBelow]
    split
    · omega
    · rcases Nat.eq_zero_or_pos n with rfl | pos
      · simp [bestBelow]
      · have := ih pos
        omega

theorem isLowestMaximum_bestBelow [order : IsStrictTotalOrder K fun a b => N.less a b]
    (pos : 0 < n) : IsLowestMaximum N score n (bestBelow N score n) := by
  induction n with
  | zero => omega
  | succ n ih =>
    rcases Nat.eq_zero_or_pos n with rfl | pos
    · have zero : bestBelow N score (0 + 1) = 0 := by
        rw [bestBelow]
        split <;> rfl
      rw [zero]
      refine ⟨by omega, fun k hk => ?_, fun k hk => by omega⟩
      obtain rfl : k = 0 := by omega
      exact order.irrefl (score 0)
    · obtain ⟨lt, maximal, lowest⟩ := ih pos
      rw [bestBelow]
      split
      · next larger =>
        have below (k : ℕ) (hk : k < n) : N.less (score k) (score n) := by
          rcases trichotomous_of (fun a b => N.less a b) (score k) (score (bestBelow N score n))
            with smaller | same | greater
          · exact order.trans _ _ _ smaller larger
          · rwa [same]
          · exact absurd greater (maximal k hk)
        refine ⟨by omega, fun k hk greater => ?_, below⟩
        rcases Nat.lt_succ_iff_lt_or_eq.mp hk with hk | rfl
        · exact order.irrefl _ (order.trans _ _ _ greater (below k hk))
        · exact order.irrefl _ greater
      · next not_larger =>
        refine ⟨by omega, fun k hk => ?_, lowest⟩
        rcases Nat.lt_succ_iff_lt_or_eq.mp hk with hk | rfl
        · exact maximal k hk
        · exact not_larger

end StumpCompiler
