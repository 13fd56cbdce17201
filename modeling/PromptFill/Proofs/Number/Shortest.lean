/-
  Shortest decimals read back.

  A point that the search finds on a decimal grid lies in the rounding interval of the number
  (`roundsTo_of_onGrid?`), and on a grid whose steps are shorter than the interval there is one
  (`isSome_onGrid?`).  The grid of seventeen digits has such steps, so the search ends with a
  decimal that rounds to the number (`roundsTo_shortest`).
-/
import PromptFill.Proofs.Number.Rounding

namespace PromptFill.Binary64

variable {m c : ℕ} {q s p : ℤ}

/-! ## Grids -/

/-- The unit of the rounding interval and the step of a grid, as multiples of one length. -/
def unitAndStep (q s : ℤ) : ℕ × ℕ :=
  ((power 2 (q - 2)).1 * (power 10 s).2, (power 2 (q - 2)).2 * (power 10 s).1)

theorem unitAndStep_pos (q s : ℤ) : 0 < (unitAndStep q s).1 ∧ 0 < (unitAndStep q s).2 := by
  obtain ⟨hup, hdown⟩ := power_pos two_pos (q - 2)
  obtain ⟨htens, htenths⟩ := power_pos (by decide : 0 < 10) s
  exact ⟨Nat.mul_pos hup htenths, Nat.mul_pos hdown htens⟩

theorem exists_unitAndStep_eq (q s : ℤ) : ∃ k : ℚ, 0 < k ∧
    ((unitAndStep q s).1 : ℚ) = k * 2 ^ (q - 2) ∧ ((unitAndStep q s).2 : ℚ) = k * 10 ^ s := by
  have htwo : ((power 2 (q - 2)).1 : ℚ) / (power 2 (q - 2)).2 = 2 ^ (q - 2) := power_div two_pos _
  have hten : ((power 10 s).1 : ℚ) / (power 10 s).2 = 10 ^ s := power_div (by decide) _
  have hdown : (0 : ℚ) < (power 2 (q - 2)).2 := Nat.cast_pos.2 (power_pos two_pos _).2
  have htenths : (0 : ℚ) < (power 10 s).2 := Nat.cast_pos.2 (power_pos (by decide) _).2
  refine ⟨(power 2 (q - 2)).2 * (power 10 s).2, mul_pos hdown htenths, ?_, ?_⟩
  · rw [← htwo, unitAndStep]
    push_cast
    field_simp
  · rw [← hten, unitAndStep]
    push_cast
    field_simp

/-- Points of the grid that lie in the interval round to the number. -/
theorem roundsTo_of_liesIn
    (h : liesIn (m % 2 = 0) ((roundingInterval m q).1 * (unitAndStep q s).1)
      ((roundingInterval m q).2 * (unitAndStep q s).1) (c * (unitAndStep q s).2) = true) :
    RoundsTo (c * 10 ^ s) m q := by
  obtain ⟨k, hk, hunit, hstep⟩ := exists_unitAndStep_eq q s
  -- comparing multiples of the common length is comparing the numbers
  have hle (a b : ℚ) : a * (unitAndStep q s).1 ≤ b * (unitAndStep q s).2 ↔
      a * 2 ^ (q - 2) ≤ b * 10 ^ s := by
    rw [hunit, hstep, mul_left_comm, mul_left_comm b, mul_le_mul_iff_right₀ hk]
  have hge (a b : ℚ) : b * (unitAndStep q s).2 ≤ a * (unitAndStep q s).1 ↔
      b * 10 ^ s ≤ a * 2 ^ (q - 2) := by
    rw [hunit, hstep, mul_left_comm, mul_left_comm a, mul_le_mul_iff_right₀ hk]
  by_cases heven : m % 2 = 0
  · simp only [liesIn, heven, decide_true, if_true, Bool.and_eq_true, decide_eq_true_eq] at h
    refine ⟨(hle _ _).1 ?_, (hge _ _).1 ?_, fun hodd => by omega⟩
    · exact_mod_cast h.1
    · exact_mod_cast h.2
  · simp only [liesIn, heven, decide_false, Bool.false_eq_true, if_false, Bool.and_eq_true,
      decide_eq_true_eq] at h
    have hlow : ((roundingInterval m q).1 : ℚ) * 2 ^ (q - 2) < c * 10 ^ s := by
      rw [← not_le, ← hge, not_le]
      exact_mod_cast h.1
    have hhigh : (c : ℚ) * 10 ^ s < (roundingInterval m q).2 * 2 ^ (q - 2) := by
      rw [← not_le, ← hle, not_le]
      exact_mod_cast h.2
    exact ⟨hlow.le, hhigh.le, fun _ => ⟨hlow, hhigh⟩⟩

/-- The two neighbours of a number on a grid that lie in its rounding interval. -/
def hits (m : ℕ) (q s : ℤ) : List ℕ :=
  let below := 4 * m * (unitAndStep q s).1 / (unitAndStep q s).2
  [below, below + 1].filter fun c =>
    liesIn (m % 2 = 0) ((roundingInterval m q).1 * (unitAndStep q s).1)
      ((roundingInterval m q).2 * (unitAndStep q s).1) (c * (unitAndStep q s).2)

/-- The point that is chosen on a grid is one of the neighbours that lie in the interval. -/
theorem onGrid?_cases (m : ℕ) (q s : ℤ) :
    hits m q s = [] ∧ onGrid? m q s = none ∨ ∃ c ∈ hits m q s, onGrid? m q s = some c := by
  rw [onGrid?, hits, unitAndStep]
  dsimp only
  generalize (power 2 (q - 2)).1 * (power 10 s).2 = unit
  generalize (power 2 (q - 2)).2 * (power 10 s).1 = step
  generalize 4 * m * unit / step = below
  generalize (fun c => liesIn (m % 2 = 0) ((roundingInterval m q).1 * unit)
    ((roundingInterval m q).2 * unit) (c * step)) = lies
  have hlist : [below, below + 1].filter lies =
      (if lies below then [below] else []) ++ if lies (below + 1) then [below + 1] else [] := by
    by_cases h : lies below <;> by_cases h' : lies (below + 1) <;> simp [h, h']
  rw [hlist]
  by_cases h : lies below <;> by_cases h' : lies (below + 1) <;> simp only [h, h', if_true]
  · -- both lie in the interval: the nearer one, or the even one
    right
    have hfirst : below ∈ [below] ++ [below + 1] := by simp
    have hsecond : below + 1 ∈ [below] ++ [below + 1] := by simp
    rcases lt_trichotomy (2 * (4 * m * unit % step)) step with hunder | hunder | hunder
    · exact ⟨below, hfirst, if_pos hunder⟩
    · obtain heven | hodd : below % 2 = 0 ∨ below % 2 = 1 := by omega
      · exact ⟨below, hfirst, by simp [hunder, heven]⟩
      · exact ⟨below + 1, hsecond, by simp [hunder, hodd]⟩
    · exact ⟨below + 1, hsecond, by simp [hunder, hunder.le]⟩
  · exact .inr ⟨below, by simp, rfl⟩
  · exact .inr ⟨below + 1, by simp, rfl⟩
  · exact .inl ⟨rfl, rfl⟩

theorem roundsTo_of_onGrid? (h : onGrid? m q s = some c) : RoundsTo (c * 10 ^ s) m q := by
  obtain ⟨-, hnone⟩ | ⟨d, hd, hsome⟩ := onGrid?_cases m q s
  · rw [h] at hnone
    cases hnone
  · rw [h] at hsome
    cases hsome
    exact roundsTo_of_liesIn (List.mem_filter.1 hd).2

theorem liesIn_of_lt {closed : Bool} {low high x : ℕ} (hlow : low < x) (hhigh : x < high) :
    liesIn closed low high x = true := by
  cases closed <;> simp [liesIn, hlow, hhigh, hlow.le, hhigh.le]

theorem roundingInterval_lt (hm : 0 < m) :
    (roundingInterval m q).1 < 4 * m ∧ 4 * m < (roundingInterval m q).2 := by
  rw [roundingInterval]
  split <;> constructor <;> omega

/-- A grid with steps that are shorter than the interval has a point in it. -/
theorem isSome_onGrid? (hm : 0 < m)
    (hstep : (roundingInterval m q).1 * (unitAndStep q s).1 + (unitAndStep q s).2 <
      (roundingInterval m q).2 * (unitAndStep q s).1) :
    (onGrid? m q s).isSome = true := by
  obtain ⟨hempty, -⟩ | ⟨d, hd, hsome⟩ := onGrid?_cases m q s
  · exfalso
    obtain ⟨hunit, hpos⟩ := unitAndStep_pos q s
    obtain ⟨hlow, hhigh⟩ := roundingInterval_lt (q := q) hm
    have hlow' := Nat.mul_lt_mul_of_pos_right hlow hunit
    have hhigh' := Nat.mul_lt_mul_of_pos_right hhigh hunit
    have hdiv := Nat.div_add_mod' (4 * m * (unitAndStep q s).1) (unitAndStep q s).2
    have hmod := Nat.mod_lt (4 * m * (unitAndStep q s).1) hpos
    simp only [hits, List.filter_eq_nil_iff, List.mem_cons, List.not_mem_nil, or_false,
      forall_eq_or_imp, forall_eq, Nat.add_mul, Nat.one_mul] at hempty
    -- the point below the number is not in the interval, so a step leads across all of it
    have hbelow := mt (fun h => liesIn_of_lt h (lt_of_le_of_lt (Nat.le.intro hdiv) hhigh'))
      hempty.1
    have habove := mt (liesIn_of_lt (by omega)) hempty.2
    omega
  · rw [hsome]
    rfl

/-! ## The search -/

/-- A power of ten that is not greater than a positive fraction. -/
theorem decimalMagnitude_le {num den : ℕ} (hnum : 0 < num) (hden : 0 < den) :
    (10 : ℚ) ^ decimalMagnitude num den ≤ num / den := by
  have hden' : (0 : ℚ) < den := Nat.cast_pos.2 hden
  rw [decimalMagnitude, le_div_iff₀ hden']
  split
  · rename_i hle
    have hlen : 1 ≤ (Nat.toDigits 10 (num / den)).length := Nat.length_toDigits_pos
    have hpow : 10 ^ ((Nat.toDigits 10 (num / den)).length - 1) * den ≤ num :=
      (Nat.mul_le_mul_right den (toDigits_bounds (Nat.div_pos hle hden)).1).trans
        (Nat.div_mul_le_self num den)
    rw [← Nat.cast_pred hlen, zpow_natCast]
    exact_mod_cast hpow
  · rename_i hlt
    set k := (den - 1) / num
    have hk : 0 < k := Nat.div_pos (by omega) hnum
    have hpow : den ≤ 10 ^ (Nat.toDigits 10 k).length * num := by
      have hless : den - 1 < (k + 1) * num := by
        rw [Nat.mul_comm]
        exact Nat.lt_mul_div_succ (den - 1) hnum
      have hmul : (k + 1) * num ≤ 10 ^ (Nat.toDigits 10 k).length * num :=
        Nat.mul_le_mul_right num (toDigits_bounds hk).2
      omega
    rw [zpow_neg, zpow_natCast, inv_mul_le_iff₀ (by positivity)]
    exact_mod_cast hpow

/-- The grid of seventeen digits has a point in the interval of every number. -/
theorem isSome_onGrid?_of_le (hm : 0 < m) (hmost : m < 2 * leastNormal)
    (hp : (10 : ℚ) ^ p ≤ m * 2 ^ q) : (onGrid? m q (p - 16)).isSome = true := by
  obtain ⟨k, hk, hunit, hstep⟩ := exists_unitAndStep_eq q (p - 16)
  have hshort : 10 ^ 16 * (unitAndStep q (p - 16)).2 ≤ 4 * (m * (unitAndStep q (p - 16)).1) := by
    have hten : (10 : ℚ) ^ p = 10 ^ 16 * 10 ^ (p - 16) := by
      rw [zpow_sub₀ (by norm_num)]
      norm_num
      ring
    rw [hten, two_zpow_eq] at hp
    have hle : (10 : ℚ) ^ 16 * (unitAndStep q (p - 16)).2 ≤
        4 * (m * (unitAndStep q (p - 16)).1) := by
      rw [hunit, hstep]
      calc (10 : ℚ) ^ 16 * (k * 10 ^ (p - 16)) = k * (10 ^ 16 * 10 ^ (p - 16)) := by ring
        _ ≤ k * (m * (4 * 2 ^ (q - 2))) := by gcongr
        _ = 4 * (m * (k * 2 ^ (q - 2))) := by ring
    exact_mod_cast hle
  have hpos := (unitAndStep_pos q (p - 16)).1
  refine isSome_onGrid? hm ?_
  generalize (unitAndStep q (p - 16)).1 = unit at *
  generalize (unitAndStep q (p - 16)).2 = step at *
  have hmost' : (m + 1) * unit ≤ 2 * leastNormal * unit := Nat.mul_le_mul_right unit hmost
  have hone : unit ≤ m * unit := Nat.le_mul_of_pos_left unit hm
  simp only [roundingInterval]
  split_ifs with h
  · rw [h.1] at hshort ⊢
    simp only [leastNormal] at *
    omega
  · simp only [leastNormal, Nat.add_mul, Nat.sub_mul, Nat.mul_assoc, Nat.one_mul] at *
    omega

theorem onGrid?_searchGrids {fuel n : ℕ} {e : ℤ}
    (h : (onGrid? m q (p - (n + fuel : ℕ) + 1)).isSome = true)
    (hfound : searchGrids m q p fuel n = (c, e)) : onGrid? m q e = some c := by
  induction fuel generalizing n with
  | zero =>
    obtain ⟨d, hd⟩ := Option.isSome_iff_exists.1 h
    rw [Nat.add_zero] at hd
    rw [searchGrids, hd] at hfound
    cases hfound
    exact hd
  | succ fuel ih =>
    rw [searchGrids] at hfound
    split at hfound
    · rename_i d hd
      cases hfound
      exact hd
    · refine ih ?_ hfound
      rwa [Nat.add_right_comm, Nat.add_assoc]

/-- The shortest decimal of a number rounds to the number. -/
theorem roundsTo_shortest (hm : 0 < m) (hmost : m < 2 * leastNormal) :
    RoundsTo ((shortest m q).1 * 10 ^ (shortest m q).2) m q := by
  have hshortest : shortest m q =
      searchGrids m q (decimalMagnitude (m * (power 2 q).1) (power 2 q).2) 16 1 := rfl
  have hp : (10 : ℚ) ^ decimalMagnitude (m * (power 2 q).1) (power 2 q).2 ≤ m * 2 ^ q := by
    obtain ⟨hup, hdown⟩ := power_pos two_pos q
    have hpow : ((power 2 q).1 : ℚ) / (power 2 q).2 = 2 ^ q := power_div two_pos q
    rw [← hpow, ← mul_div_assoc, ← Nat.cast_mul]
    exact decimalMagnitude_le (Nat.mul_pos hm hup) hdown
  rw [hshortest]
  generalize decimalMagnitude (m * (power 2 q).1) (power 2 q).2 = p at hp ⊢
  refine roundsTo_of_onGrid? (onGrid?_searchGrids ?_ rfl)
  have hlast : p - (1 + 16 : ℕ) + 1 = p - 16 := by
    push_cast
    ring
  rw [hlast]
  exact isSome_onGrid?_of_le hm hmost hp

theorem shortest_pos (hm : 0 < m) (hmost : m < 2 * leastNormal) : 0 < (shortest m q).1 := by
  have hle := (roundsTo_shortest (q := q) hm hmost).two_zpow_le hm
  refine Nat.pos_of_ne_zero fun hzero => ?_
  rw [hzero, Nat.cast_zero, zero_mul] at hle
  exact absurd hle (not_le.2 (by positivity))

end PromptFill.Binary64
