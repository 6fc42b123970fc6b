import Minuteman.Datapath.Helpers
import Minuteman.Library.TokenBucket

/-!
# The rate of ICMP errors

The bucket of `icmp_error_allowed` on one CPU, over any sequence of calls: it is
a token bucket whose clock does not wrap, so the calls it allows in a window are
bounded, and a pause of a full refill allows a full burst.
-/
namespace Minuteman.Datapath
open Library

def allowances : Xdp → List Env → List Bool
  | _, [] => []
  | x, env :: calls => (icmpErrorAllowed env x).1 :: allowances (icmpErrorAllowed env x).2 calls

def allowedWithin (x : Xdp) (a len : ℕ) (calls : List Env) : ℕ :=
  (calls.zip (allowances x calls)).countP fun c =>
    decide (a ≤ c.1.now ∧ c.1.now ≤ a + len) && c.2

/-- Calls on one CPU, one after the other, on the kernel's 64-bit clock. -/
structure CallsOn (cpu : ℕ) (calls : List Env) : Prop where
  cpu : ∀ env ∈ calls, env.cpu = cpu
  ordered : calls.Pairwise fun earlier later => earlier.now ≤ later.now
  clock : ∀ env ∈ calls, env.now < 2 ^ 64

namespace IcmpRateBucket

def toTokenBucket (b : IcmpRateBucket) : TokenBucket := ⟨b.lastRefillNs, b.tokens⟩

theorem toTokenBucket_last (b : IcmpRateBucket) : b.toTokenBucket.last = b.lastRefillNs := rfl

theorem toTokenBucket_tokens (b : IcmpRateBucket) : b.toTokenBucket.tokens = b.tokens := rfl

theorem elapsedNs_eq_sub {now since : ℕ} (h : since ≤ now) (hclock : now < 2 ^ 64) :
    elapsedNs now since = now - since := by
  unfold elapsedNs
  omega

/-- A clock that does not go back does not wrap in the bucket. -/
theorem refilled_toTokenBucket {b : IcmpRateBucket} {now : ℕ} (hlast : b.lastRefillNs ≤ now)
    (hclock : now < 2 ^ 64) (htokens : b.tokens ≤ icmpErrorBurst) :
    (b.refilled now).toTokenBucket =
      b.toTokenBucket.refill icmpErrorBurst icmpErrorRefillIntervalNs now := by
  unfold refilled TokenBucket.refill toTokenBucket
  rw [elapsedNs_eq_sub hlast hclock]
  generalize icmpErrorRefillIntervalNs = interval
  have hle : b.lastRefillNs + (now - b.lastRefillNs) / interval * interval ≤ now := by
    have hdiv := Nat.div_mul_le_self (now - b.lastRefillNs) interval
    omega
  dsimp only
  split_ifs with hrefill
  · rw [Nat.mod_eq_of_lt (hle.trans_lt hclock)]
  · rw [Nat.eq_zero_of_not_pos hrefill, Nat.zero_mul, Nat.add_zero, Nat.add_zero,
      Nat.min_eq_right htokens]

theorem spent_toTokenBucket (b : IcmpRateBucket) :
    (if b.tokens = 0 then b else { b with tokens := b.tokens - 1 }).toTokenBucket =
      b.toTokenBucket.spend := by
  split_ifs with hempty
  · simp [toTokenBucket, TokenBucket.spend, hempty]
  · rfl

end IcmpRateBucket

theorem CallsOn.tail {cpu : ℕ} {env : Env} {calls : List Env} (h : CallsOn cpu (env :: calls)) :
    CallsOn cpu calls where
  cpu := fun e he => h.cpu e (List.mem_cons_of_mem env he)
  ordered := h.ordered.of_cons
  clock := fun e he => h.clock e (List.mem_cons_of_mem env he)

theorem CallsOn.times_ordered {cpu : ℕ} {calls : List Env} (h : CallsOn cpu calls) :
    (calls.map Env.now).Pairwise (· ≤ ·) := List.pairwise_map.mpr h.ordered

/-- The bucket `icmp_error_allowed` leaves is the one it refilled, less the token it took. -/
theorem icmpErrorAllowed_bucket (env : Env) (x : Xdp) :
    ((icmpErrorAllowed env x).2.maps.icmpErrorRate env.cpu).toTokenBucket =
      ((x.maps.icmpErrorRate env.cpu).refilled env.now).toTokenBucket.spend := by
  rw [← IcmpRateBucket.spent_toTokenBucket]
  unfold icmpErrorAllowed
  generalize (x.maps.icmpErrorRate env.cpu).refilled env.now = b
  dsimp only
  rw [Function.update_self]

theorem icmpErrorAllowed_answer (env : Env) (x : Xdp) :
    (icmpErrorAllowed env x).1 =
      decide (((x.maps.icmpErrorRate env.cpu).refilled env.now).tokens ≠ 0) := rfl

/-- The calls answer as the token bucket does. -/
theorem allowances_eq_answers {cpu : ℕ} {x : Xdp} {calls : List Env} (h : CallsOn cpu calls)
    (htokens : (x.maps.icmpErrorRate cpu).tokens ≤ icmpErrorBurst)
    (hlast : ∀ env ∈ calls, (x.maps.icmpErrorRate cpu).lastRefillNs ≤ env.now) :
    allowances x calls = TokenBucket.answers icmpErrorBurst icmpErrorRefillIntervalNs
      (x.maps.icmpErrorRate cpu).toTokenBucket (calls.map Env.now) := by
  induction calls generalizing x with
  | nil => rfl
  | cons env calls ih =>
    obtain rfl : env.cpu = cpu := h.cpu env (by simp)
    have hrefill := IcmpRateBucket.refilled_toTokenBucket (hlast env (by simp))
      (h.clock env (by simp)) htokens
    have hbucket := icmpErrorAllowed_bucket env x
    rw [hrefill] at hbucket
    have hnow : ((icmpErrorAllowed env x).2.maps.icmpErrorRate env.cpu).lastRefillNs ≤ env.now := by
      rw [← IcmpRateBucket.toTokenBucket_last, hbucket, TokenBucket.spend]
      exact @TokenBucket.refill_last_le icmpErrorBurst _ _ _ (hlast env (by simp))
    have hspent : ((icmpErrorAllowed env x).2.maps.icmpErrorRate env.cpu).tokens ≤
        icmpErrorBurst := by
      rw [← IcmpRateBucket.toTokenBucket_tokens, hbucket]
      exact TokenBucket.next_tokens_le
    have hlater : ∀ later ∈ calls,
        ((icmpErrorAllowed env x).2.maps.icmpErrorRate env.cpu).lastRefillNs ≤ later.now :=
      fun later hmem => hnow.trans ((List.pairwise_cons.mp h.ordered).1 later hmem)
    rw [allowances, icmpErrorAllowed_answer, ← IcmpRateBucket.toTokenBucket_tokens, hrefill,
      ih h.tail hspent hlater, hbucket, List.map_cons, TokenBucket.answers, TokenBucket.next]

/-- From a bucket that is zero, the calls allowed in a window of `len` nanoseconds are at most 20
and one per 10 ms of it, and after 200 ms without a call the next 20 are allowed. -/
theorem errors_rate_bounded (cpu : ℕ) (x : Xdp) (hzero : x.maps.icmpErrorRate cpu = ⟨0, 0⟩)
    (calls : List Env) (h : CallsOn cpu calls) :
    (∀ a len, allowedWithin x a len calls ≤ 20 + len ⌈/⌉ 10000000) ∧
      ∀ before after since, calls = before ++ after → (∀ env ∈ before, env.now ≤ since) →
        (∀ env ∈ after, since + 200000000 ≤ env.now) →
        ∀ ok ∈ ((allowances x calls).drop before.length).take 20, ok = true := by
  have hinterval : 0 < icmpErrorRefillIntervalNs := by decide
  have hanswers := allowances_eq_answers h (x := x) (by simp [hzero]) (by simp [hzero])
  have hbucket : (x.maps.icmpErrorRate cpu).toTokenBucket = ⟨0, 0⟩ := by rw [hzero]; rfl
  rw [hbucket] at hanswers
  constructor
  · intro a len
    have htaken : allowedWithin x a len calls = TokenBucket.taken icmpErrorBurst
        icmpErrorRefillIntervalNs (fun t => decide (a ≤ t ∧ t ≤ a + len)) ⟨0, 0⟩
        (calls.map Env.now) := by
      rw [allowedWithin, TokenBucket.taken, hanswers, List.zip_map_left, List.countP_map]
      rfl
    rw [htaken]
    exact TokenBucket.taken_window_le hinterval h.times_ordered fun t _ => Nat.zero_le t
  · rintro before after since rfl hbefore hafter
    have hordered := h.times_ordered
    rw [List.map_append] at hordered
    rw [hanswers, List.map_append, TokenBucket.answers_append, List.drop_left' (by
      rw [TokenBucket.answers_length, List.length_map])]
    cases after with
    | nil => simp [TokenBucket.answers]
    | cons env after =>
      rw [List.map_cons]
      apply TokenBucket.answers_after_pause hinterval
      have hfull : 20 * icmpErrorRefillIntervalNs = 200000000 := by decide
      have hlast : (TokenBucket.after icmpErrorBurst icmpErrorRefillIntervalNs ⟨0, 0⟩
          (before.map Env.now)).last ≤ since := by
        apply TokenBucket.after_last_le (Nat.zero_le since) (List.pairwise_append.mp hordered).1
        · exact fun t _ => Nat.zero_le t
        · exact List.forall_mem_map.mpr hbefore
      rw [hfull]
      exact (Nat.add_le_add_right hlast _).trans (hafter env List.mem_cons_self)

def callAt (now : ℕ) : Env where
  fib _ := { ret := .unreachable, egress := 0 }
  mtu _ := none
  now := now

/-- Of 25 calls a second after boot and one 10 ms later 21 are allowed, the most there may be. -/
theorem errors_rate_bounded_burst :
    let calls := List.replicate 25 (callAt 1000000000) ++ [callAt 1010000000]
    let x : Xdp := ⟨.zeroed, ⟨[], [], 2⟩⟩
    allowedWithin x 1000000000 10000000 calls = 21 ∧
      allowedWithin x 1000000000 10000000 calls ≤ 20 + 10000000 ⌈/⌉ 10000000 := by
  intro calls x
  have hcalls : CallsOn 0 calls := ⟨by decide +kernel, by decide +kernel, by decide +kernel⟩
  exact ⟨by decide +kernel, (errors_rate_bounded 0 x rfl calls hcalls).1 1000000000 10000000⟩

end Minuteman.Datapath
