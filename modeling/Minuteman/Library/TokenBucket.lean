import Mathlib.Tactic
import Mathlib.Algebra.Order.Floor.Div

/-!
# Token buckets

A bucket holds at most `burst` tokens and gains one per whole `interval` that
has passed. The time it is refilled up to moves by whole intervals, so what is
left of one counts toward the next. In any window the tokens taken are at most
a full bucket and what the window refills.
-/
namespace Minuteman.Library

/-- The tokens in a bucket, and the time it was refilled up to. -/
@[ext]
structure TokenBucket where
  last : ℕ
  tokens : ℕ

namespace TokenBucket
variable (burst interval : ℕ)

def refill (b : TokenBucket) (now : ℕ) : TokenBucket where
  last := b.last + (now - b.last) / interval * interval
  tokens := min burst (b.tokens + (now - b.last) / interval)

def spend (b : TokenBucket) : TokenBucket := { b with tokens := b.tokens - 1 }

def next (b : TokenBucket) (now : ℕ) : TokenBucket := (b.refill burst interval now).spend

/-- Whether each of the calls at `times` finds a token. -/
def answers : TokenBucket → List ℕ → List Bool
  | _, [] => []
  | b, t :: times =>
    decide ((b.refill burst interval t).tokens ≠ 0) :: answers (b.next burst interval t) times

variable {burst interval} {b : TokenBucket} {t : ℕ} {times : List ℕ}

theorem refill_last_le (h : b.last ≤ t) : (b.refill burst interval t).last ≤ t := by
  have hle := Nat.div_mul_le_self (t - b.last) interval
  dsimp only [refill]
  omega

theorem lt_refill_last (hpos : 0 < interval) : t < (b.refill burst interval t).last + interval := by
  have hlt := Nat.lt_div_mul_add (a := t - b.last) hpos
  dsimp only [refill]
  omega

theorem refill_tokens_le : (b.refill burst interval t).tokens ≤ burst := Nat.min_le_left _ _

theorem next_tokens_le : (b.next burst interval t).tokens ≤ burst :=
  (Nat.sub_le _ _).trans refill_tokens_le

/-- Refilling a second time at the same instant adds nothing. -/
theorem refill_refill (hpos : 0 < interval) :
    (b.refill burst interval t).refill burst interval t = b.refill burst interval t := by
  have hnone : (t - (b.refill burst interval t).last) / interval = 0 := by
    have hlt : t < (b.refill burst interval t).last + interval := lt_refill_last hpos
    exact Nat.div_eq_of_lt (by omega)
  ext
  · rw [refill, hnone, Nat.zero_mul, Nat.add_zero]
  · rw [refill, hnone, Nat.add_zero]
    exact Nat.min_eq_right refill_tokens_le

theorem answers_refill (hpos : 0 < interval) :
    answers burst interval (b.refill burst interval t) (t :: times) =
      answers burst interval b (t :: times) := by
  simp only [answers, next, refill_refill hpos]

/-- How many of the calls at `times` that are in the window find a token. -/
def taken (burst interval : ℕ) (window : ℕ → Bool) (b : TokenBucket) (times : List ℕ) : ℕ :=
  (times.zip (answers burst interval b times)).countP fun c => window c.1 && c.2

section Counting
variable {window : ℕ → Bool}

theorem taken_cons : taken burst interval window b (t :: times) =
    taken burst interval window (b.next burst interval t) times +
      if window t = true ∧ (b.refill burst interval t).tokens ≠ 0 then 1 else 0 := by
  simp [taken, answers, List.countP_cons]

theorem taken_eq_zero (h : ∀ t ∈ times, window t = false) :
    taken burst interval window b times = 0 := by
  apply List.countP_eq_zero.mpr
  intro c hc
  simp [h c.1 (List.of_mem_zip hc).1]

theorem taken_congr {window' : ℕ → Bool} (h : ∀ t ∈ times, window t = window' t) :
    taken burst interval window b times = taken burst interval window' b times := by
  apply List.countP_congr
  intro c hc
  rw [h c.1 (List.of_mem_zip hc).1]

/-- What is left to refill up to `u`. -/
theorem refill_div_eq {u : ℕ} (htu : t ≤ u) :
    (u - (b.refill burst interval t).last) / interval + (t - b.last) / interval =
      (u - b.last) / interval := by
  have hmono : (t - b.last) / interval ≤ (u - b.last) / interval :=
    Nat.div_le_div_right (Nat.sub_le_sub_right htu _)
  have hsub : u - (b.refill burst interval t).last =
      u - b.last - (t - b.last) / interval * interval := Nat.sub_add_eq _ _ _
  rw [hsub, Nat.mul_comm, Nat.sub_mul_div, Nat.sub_add_cancel hmono]

/-- Up to `u` a bucket gives no more than it holds and is refilled with. -/
theorem taken_le {u : ℕ} (hmono : times.Pairwise (· ≤ ·)) (hlast : ∀ t ∈ times, b.last ≤ t) :
    taken burst interval (fun t => decide (t ≤ u)) b times ≤
      b.tokens + (u - b.last) / interval := by
  induction times generalizing b with
  | nil => exact Nat.zero_le _
  | cons t times ih =>
    obtain ⟨hfirst, hrest⟩ := List.pairwise_cons.mp hmono
    by_cases htu : t ≤ u
    · have hlate : (b.refill burst interval t).last ≤ t := refill_last_le (hlast t (by simp))
      have hih : taken burst interval (fun t => decide (t ≤ u)) (b.next burst interval t) times ≤
          (b.refill burst interval t).tokens - 1 +
            (u - (b.refill burst interval t).last) / interval :=
        ih hrest fun t' ht' => hlate.trans (hfirst t' ht')
      have hdiv : (u - (b.refill burst interval t).last) / interval + (t - b.last) / interval =
        (u - b.last) / interval := refill_div_eq htu
      have htokens : (b.refill burst interval t).tokens ≤ b.tokens + (t - b.last) / interval :=
        Nat.min_le_right _ _
      rw [taken_cons]
      split_ifs with htaken
      · omega
      · omega
    · rw [taken_eq_zero]
      · exact Nat.zero_le _
      · intro t' ht'
        rcases List.mem_cons.mp ht' with rfl | hlater
        · simpa using htu
        · have := hfirst t' hlater
          simp only [decide_eq_false_iff_not]
          omega

/-- Of the calls from `a` to `a + len` at most a full bucket and what `len` refills find a
token. -/
theorem taken_window_le {a len : ℕ} (hpos : 0 < interval) (hmono : times.Pairwise (· ≤ ·))
    (hlast : ∀ t ∈ times, b.last ≤ t) :
    taken burst interval (fun t => decide (a ≤ t ∧ t ≤ a + len)) b times ≤
      burst + len ⌈/⌉ interval := by
  induction times generalizing b with
  | nil => exact Nat.zero_le _
  | cons t times ih =>
    obtain ⟨hfirst, hrest⟩ := List.pairwise_cons.mp hmono
    have hlate : (b.refill burst interval t).last ≤ t := refill_last_le (hlast t (by simp))
    by_cases hat : a ≤ t
    · have hwindow : ∀ t' ∈ t :: times,
          decide (a ≤ t' ∧ t' ≤ a + len) = decide (t' ≤ a + len) := by
        intro t' ht'
        have hlater : t ≤ t' := by
          rcases List.mem_cons.mp ht' with rfl | hmem
          · exact le_rfl
          · exact hfirst t' hmem
        simp [hat.trans hlater]
      have hle : taken burst interval (fun t => decide (t ≤ a + len)) (b.refill burst interval t)
          (t :: times) ≤ (b.refill burst interval t).tokens +
            (a + len - (b.refill burst interval t).last) / interval := by
        apply taken_le hmono
        exact List.forall_mem_cons.mpr ⟨hlate, fun t' ht' => hlate.trans (hfirst t' ht')⟩
      have hceil : (a + len - (b.refill burst interval t).last) / interval ≤ len ⌈/⌉ interval := by
        have hlt : t < (b.refill burst interval t).last + interval := lt_refill_last hpos
        rw [Nat.ceilDiv_eq_add_pred_div]
        exact Nat.div_le_div_right (by omega)
      rw [taken_congr hwindow, taken, ← answers_refill hpos]
      exact hle.trans (Nat.add_le_add refill_tokens_le hceil)
    · rw [taken_cons, if_neg (by simp [hat]), Nat.add_zero]
      exact ih hrest fun t' ht' => hlate.trans (hfirst t' ht')

end Counting

/-- While there are tokens the calls find one. -/
theorem answers_of_tokens {n : ℕ} (hn : n ≤ burst) (htokens : n ≤ b.tokens) :
    ∀ ok ∈ (answers burst interval b times).take n, ok = true := by
  induction times generalizing b n with
  | nil => simp [answers]
  | cons t times ih =>
    cases n with
    | zero => simp
    | succ n =>
      have hrefill : n + 1 ≤ (b.refill burst interval t).tokens :=
        Nat.le_min.mpr ⟨hn, htokens.trans (Nat.le_add_right _ _)⟩
      rw [answers, List.take_succ_cons, List.forall_mem_cons]
      constructor
      · simp only [decide_eq_true_eq]
        omega
      · apply ih (Nat.le_of_succ_le hn)
        exact Nat.le_sub_one_of_lt hrefill

/-- After a pause in which the bucket fills up, `burst` calls find a token. -/
theorem answers_after_pause (hpos : 0 < interval) (hpause : b.last + burst * interval ≤ t) :
    ∀ ok ∈ (answers burst interval b (t :: times)).take burst, ok = true := by
  rw [← answers_refill hpos]
  apply answers_of_tokens le_rfl
  have hfull : burst ≤ (t - b.last) / interval := (Nat.le_div_iff_mul_le hpos).mpr (by omega)
  exact Nat.le_min.mpr ⟨le_rfl, hfull.trans (Nat.le_add_left _ _)⟩

def after (burst interval : ℕ) (b : TokenBucket) (times : List ℕ) : TokenBucket :=
  times.foldl (next burst interval) b

theorem answers_append {later : List ℕ} : answers burst interval b (times ++ later) =
    answers burst interval b times ++
      answers burst interval (after burst interval b times) later := by
  induction times generalizing b with
  | nil => rfl
  | cons t times ih =>
    rw [List.cons_append, answers, ih, answers, List.cons_append]
    rfl

theorem answers_length : (answers burst interval b times).length = times.length := by
  induction times generalizing b with
  | nil => rfl
  | cons t times ih => rw [answers, List.length_cons, ih, List.length_cons]

/-- A bucket is refilled up to no later than the last call. -/
theorem after_last_le {u : ℕ} (hlast : b.last ≤ u) (hmono : times.Pairwise (· ≤ ·))
    (hfrom : ∀ t ∈ times, b.last ≤ t) (hu : ∀ t ∈ times, t ≤ u) :
    (after burst interval b times).last ≤ u := by
  induction times generalizing b with
  | nil => exact hlast
  | cons t times ih =>
    obtain ⟨hfirst, hrest⟩ := List.pairwise_cons.mp hmono
    have hlate : (b.refill burst interval t).last ≤ t := refill_last_le (hfrom t (by simp))
    apply ih
    · exact hlate.trans (hu t (by simp))
    · exact hrest
    · exact fun t' ht' => hlate.trans (hfirst t' ht')
    · exact fun t' ht' => hu t' (by simp [ht'])

end TokenBucket
end Minuteman.Library
