import Nodo.Model.Validators

/-!
# Nodo — the congestion price

`economics/V1ResourceFee.cpp`. A block's price follows from its parent's price and from how
full the parent was: above half its capacity the price rises, below it falls, and the floor of
the child's parameters applies last. The products are taken in 128 bits.

## Results

* `nextBaseFee_eq_some_iff` — the code computes the formula of the specification, without a wrap.
* `candidate_mono_used`, `candidate_mono_price` — the formula is monotone.
* `emptyRun_settles` — empty blocks bring the price down to the floor, or to seven above it.
* `congestion_price_law` — these together, with the bounds on one step.
-/

namespace Nodo.Model.V1ResourceFee

--
-- The code (economics/V1ResourceFee.cpp)
--

def kMinBlockUnits : UInt64 := 5000000

def kMaxBlockUnits : UInt64 := 16777216

def kMaxU64 : Nat := 2 ^ 64 - 1

/-- A value of `unsigned __int128`. -/
def wide (n : Nat) : Nat := n % 2 ^ 128

def nextBaseFee (parentBaseFee parentUsedUnits parentMaxBlockUnits childFloor : UInt64) :
    Option UInt64 :=
  if parentBaseFee == 0 || childFloor == 0 || parentMaxBlockUnits < kMinBlockUnits
      || kMaxBlockUnits < parentMaxBlockUnits || parentMaxBlockUnits < parentUsedUnits then none
  else
    let target := parentMaxBlockUnits / 2
    let next :=
      if target < parentUsedUnits then
        let excess := parentUsedUnits - target
        let rawDelta := wide (parentBaseFee.toNat * excess.toNat) / wide (target.toNat * 8)
        let candidate := wide (parentBaseFee.toNat + max 1 rawDelta)
        if kMaxU64 < candidate then UInt64.ofNat kMaxU64 else UInt64.ofNat candidate
      else if parentUsedUnits < target then
        let deficit := target - parentUsedUnits
        let delta := UInt64.ofNat
          (wide (parentBaseFee.toNat * deficit.toNat) / wide (target.toNat * 8))
        parentBaseFee - delta
      else parentBaseFee
    some (if next < childFloor then childFloor else next)

--
-- The formula
--

/-- The price of the specification before the floor: `P` the parent's price, `U` its units, `T`
the target. -/
def candidate (P U T : Nat) : Nat :=
  if T < U then min kMaxU64 (P + max 1 (P * (U - T) / (8 * T)))
  else if U < T then P - P * (T - U) / (8 * T)
  else P

/-- Valid arguments. -/
structure Arguments (P U M F : Nat) : Prop where
  price : 0 < P ∧ P ≤ kMaxU64
  floor : 0 < F
  capacity : kMinBlockUnits.toNat ≤ M ∧ M ≤ kMaxBlockUnits.toNat
  used : U ≤ M

theorem arguments_iff {P U M F : UInt64} :
    (P == 0 || F == 0 || M < kMinBlockUnits || kMaxBlockUnits < M || M < U) = false ↔
      Arguments P.toNat U.toNat M.toNat F.toNat := by
  have hP := P.toNat_lt
  have hzero : ∀ n : UInt64, (n == 0) = false ↔ 0 < n.toNat := by
    intro n
    rw [beq_eq_false_iff_ne, Ne, ← UInt64.toNat_inj, Nat.pos_iff_ne_zero]
    rfl
  simp only [Bool.or_eq_false_iff, hzero, decide_eq_false_iff_not, UInt64.lt_iff_toNat_lt,
    Nat.not_lt]
  constructor
  · rintro ⟨⟨⟨⟨hprice, hfloor⟩, hmin⟩, hmax⟩, hused⟩
    exact ⟨⟨hprice, by unfold kMaxU64; omega⟩, hfloor, ⟨hmin, hmax⟩, hused⟩
  · rintro ⟨⟨hprice, -⟩, hfloor, ⟨hmin, hmax⟩, hused⟩
    exact ⟨⟨⟨⟨hprice, hfloor⟩, hmin⟩, hmax⟩, hused⟩

/-- A product of a price and a part of the capacity fits 128 bits. -/
theorem wide_product {P e : Nat} (hP : P ≤ kMaxU64) (he : e ≤ kMaxBlockUnits.toNat) :
    wide (P * e) = P * e := by
  have hmul : P * e ≤ kMaxU64 * 16777216 := Nat.mul_le_mul hP he
  unfold wide
  unfold kMaxU64 at hmul
  exact Nat.mod_eq_of_lt (by omega)

/-- The change of the price is at most a share of it. -/
theorem delta_le {P e T : Nat} (he : e ≤ T) : P * e / (8 * T) ≤ P / 8 := by
  rcases Nat.eq_zero_or_pos T with rfl | hT
  · simp
  · calc P * e / (8 * T) ≤ P * T / (8 * T) := Nat.div_le_div_right (Nat.mul_le_mul_left P he)
      _ = P / 8 := Nat.mul_div_mul_right P 8 hT

theorem candidate_le {P U T : Nat} (hP : P ≤ kMaxU64) : candidate P U T ≤ kMaxU64 := by
  unfold candidate
  split_ifs
  · exact Nat.min_le_left _ _
  · exact (Nat.sub_le _ _).trans hP
  · exact hP

/-- **The code is the formula.** No intermediate value wraps. -/
theorem nextBaseFee_eq_some_iff {P U M F next : UInt64} :
    nextBaseFee P U M F = some next ↔
      Arguments P.toNat U.toNat M.toNat F.toNat ∧
        next.toNat = max F.toNat (candidate P.toNat U.toNat (M.toNat / 2)) := by
  unfold nextBaseFee
  cases hvalid : (P == 0 || F == 0 || M < kMinBlockUnits || kMaxBlockUnits < M || M < U) with
  | true =>
    refine ⟨fun h => by simp at h, fun h => ?_⟩
    rw [← arguments_iff, hvalid] at h
    cases h.1
  | false =>
    have hargs := arguments_iff.mp hvalid
    obtain ⟨⟨hpos, hP⟩, -, ⟨hmin, hmax⟩, hused⟩ := hargs
    have htarget : (M / 2).toNat = M.toNat / 2 := UInt64.toNat_div M 2
    change 5000000 ≤ M.toNat at hmin
    change M.toNat ≤ 16777216 at hmax
    have hcapacity : kMaxBlockUnits.toNat = 16777216 := rfl
    have hdivisor : wide (M.toNat / 2 * 8) = 8 * (M.toNat / 2) := by
      unfold wide
      rw [Nat.mod_eq_of_lt (by omega), Nat.mul_comm]
    -- the next price, as a number
    have hnext : ∀ value : UInt64, value.toNat = candidate P.toNat U.toNat (M.toNat / 2) →
        (some (if value < F then F else value) = some next ↔
          next.toNat = max F.toNat (candidate P.toNat U.toNat (M.toNat / 2))) := by
      intro value hvalue
      rw [Option.some.injEq, ← UInt64.toNat_inj, ← hvalue]
      by_cases hlow : value < F
      · rw [if_pos hlow]
        rw [UInt64.lt_iff_toNat_lt] at hlow
        rw [Nat.max_eq_left (Nat.le_of_lt hlow)]
        exact eq_comm
      · rw [if_neg hlow]
        rw [UInt64.lt_iff_toNat_lt, Nat.not_lt] at hlow
        rw [Nat.max_eq_right hlow]
        exact eq_comm
    simp only [Bool.false_eq_true, if_false]
    rw [hnext]
    · exact ⟨fun h => ⟨arguments_iff.mp hvalid, h⟩, fun h => h.2⟩
    unfold candidate
    simp only [UInt64.lt_iff_toNat_lt, htarget]
    split_ifs with habove hbig hbelow
    · -- the saturating branch
      have hexcess : (U - M / 2).toNat = U.toNat - M.toNat / 2 := by
        rw [UInt64.toNat_sub_of_le _ _ (UInt64.le_iff_toNat_le.mpr (by omega)), htarget]
      rw [hdivisor, hexcess, wide_product hP (by omega)] at hbig
      have hwide : wide (P.toNat + max 1 (P.toNat * (U.toNat - M.toNat / 2) / (8 * (M.toNat / 2))))
          ≤ P.toNat + max 1 (P.toNat * (U.toNat - M.toNat / 2) / (8 * (M.toNat / 2))) :=
        Nat.mod_le _ _
      rw [Nat.min_eq_left (by omega)]
      rfl
    · have hexcess : (U - M / 2).toNat = U.toNat - M.toNat / 2 := by
        rw [UInt64.toNat_sub_of_le _ _ (UInt64.le_iff_toNat_le.mpr (by omega)), htarget]
      rw [hdivisor, hexcess, wide_product hP (by omega)] at hbig ⊢
      have hsmall : P.toNat * (U.toNat - M.toNat / 2) / (8 * (M.toNat / 2))
          ≤ kMaxU64 * 16777216 :=
        (Nat.div_le_self _ _).trans (Nat.mul_le_mul hP (by omega))
      have hfits : wide (P.toNat
            + max 1 (P.toNat * (U.toNat - M.toNat / 2) / (8 * (M.toNat / 2))))
          = P.toNat + max 1 (P.toNat * (U.toNat - M.toNat / 2) / (8 * (M.toNat / 2))) := by
        unfold wide
        unfold kMaxU64 at hsmall hP
        exact Nat.mod_eq_of_lt (by omega)
      rw [hfits] at hbig ⊢
      rw [Nat.min_eq_right (Nat.not_lt.mp hbig)]
      refine UInt64.toNat_ofNat_of_lt' ?_
      unfold kMaxU64 at hbig
      exact Nat.lt_of_le_of_lt (Nat.not_lt.mp hbig) (by decide)
    · have hdeficit : (M / 2 - U).toNat = M.toNat / 2 - U.toNat := by
        rw [UInt64.toNat_sub_of_le _ _ (UInt64.le_iff_toNat_le.mpr (by omega)), htarget]
      rw [hdivisor, hdeficit, wide_product hP (by omega)]
      have hle : P.toNat * (M.toNat / 2 - U.toNat) / (8 * (M.toNat / 2)) ≤ P.toNat / 8 :=
        delta_le (Nat.sub_le _ _)
      have hdelta : (UInt64.ofNat (P.toNat * (M.toNat / 2 - U.toNat) / (8 * (M.toNat / 2)))).toNat
          = P.toNat * (M.toNat / 2 - U.toNat) / (8 * (M.toNat / 2)) := by
        refine UInt64.toNat_ofNat_of_lt' ?_
        have hlt := P.toNat_lt
        exact Nat.lt_of_le_of_lt (hle.trans (Nat.div_le_self _ _)) hlt
      rw [UInt64.toNat_sub_of_le _ _ (UInt64.le_iff_toNat_le.mpr (by omega)), hdelta]
    · rfl

--
-- One step
--

/-- Fuller parents make higher prices. -/
theorem candidate_mono_used {P U U' T : Nat} (hP : P ≤ kMaxU64) (h : U ≤ U') :
    candidate P U T ≤ candidate P U' T := by
  have hfall : P - P * (T - U) / (8 * T) ≤ P := Nat.sub_le _ _
  unfold candidate
  by_cases habove : T < U
  · rw [if_pos habove, if_pos (Nat.lt_of_lt_of_le habove h)]
    have hshare : P * (U - T) / (8 * T) ≤ P * (U' - T) / (8 * T) :=
      Nat.div_le_div_right (Nat.mul_le_mul_left P (Nat.sub_le_sub_right h T))
    omega
  · rw [if_neg habove]
    by_cases habove' : T < U'
    · have hrise : P ≤ min kMaxU64 (P + max 1 (P * (U' - T) / (8 * T))) :=
        Nat.le_min.mpr ⟨hP, Nat.le_add_right _ _⟩
      rw [if_pos habove']
      split_ifs
      · exact hfall.trans hrise
      · exact hrise
    · rw [if_neg habove']
      by_cases hbelow' : U' < T
      · rw [if_pos hbelow', if_pos (Nat.lt_of_le_of_lt h hbelow')]
        have hshare : P * (T - U') / (8 * T) ≤ P * (T - U) / (8 * T) :=
          Nat.div_le_div_right (Nat.mul_le_mul_left P (Nat.sub_le_sub_left h T))
        omega
      · rw [if_neg hbelow']
        split_ifs
        · exact hfall
        · exact Nat.le_refl P

/-- A fall of at most an eighth keeps the order of two prices. -/
theorem sub_share_mono {P P' d T : Nat} (hd : d ≤ T) (h : P ≤ P') :
    P - P * d / (8 * T) ≤ P' - P' * d / (8 * T) := by
  rcases Nat.eq_zero_or_pos T with rfl | hT
  · simpa using h
  · obtain ⟨more, rfl⟩ := Nat.exists_eq_add_of_le h
    -- the added price pays for what its own share takes
    have hshare : (P + more) * d / (8 * T) ≤ P * d / (8 * T) + more := by
      calc (P + more) * d / (8 * T)
          ≤ (P * d + more * (8 * T)) / (8 * T) := by
            refine Nat.div_le_div_right ?_
            rw [Nat.add_mul]
            exact Nat.add_le_add_left (Nat.mul_le_mul_left more (by omega)) _
        _ = P * d / (8 * T) + more := Nat.add_mul_div_right _ _ (by omega)
    omega

/-- Dearer parents make higher prices. -/
theorem candidate_mono_price {P P' U T : Nat} (h : P ≤ P') :
    candidate P U T ≤ candidate P' U T := by
  unfold candidate
  split_ifs with habove hbelow
  · have hshare : P * (U - T) / (8 * T) ≤ P' * (U - T) / (8 * T) :=
      Nat.div_le_div_right (Nat.mul_le_mul_right _ h)
    omega
  · exact sub_share_mono (Nat.sub_le _ _) h
  · exact h

/-- A step up is one unit, or the share of the units above the target. -/
theorem candidate_rise {P U M : Nat} (hU : U ≤ M) :
    candidate P U (M / 2) ≤ P + max 1 (P * (M - M / 2) / (8 * (M / 2))) := by
  have hshare : P * (U - M / 2) / (8 * (M / 2)) ≤ P * (M - M / 2) / (8 * (M / 2)) :=
    Nat.div_le_div_right (Nat.mul_le_mul_left P (Nat.sub_le_sub_right hU _))
  have hfall : P - P * (M / 2 - U) / (8 * (M / 2)) ≤ P := Nat.sub_le _ _
  unfold candidate
  split_ifs <;> omega

/-- For an even capacity that share is an eighth at most. -/
theorem rise_of_even {P M : Nat} (hM : M % 2 = 0) (hpos : 0 < M) :
    P * (M - M / 2) / (8 * (M / 2)) = P / 8 := by
  rw [show M - M / 2 = M / 2 by omega]
  exact Nat.mul_div_mul_right P 8 (by omega)

theorem candidate_fall {P U T : Nat} (hP : P ≤ kMaxU64) : P - P / 8 ≤ candidate P U T := by
  unfold candidate
  have hshare : P * (T - U) / (8 * T) ≤ P / 8 := delta_le (Nat.sub_le _ _)
  split_ifs <;> omega

--
-- Empty blocks
--

/-- The price after an empty block. -/
def decay (F P : Nat) : Nat := max F (P - P / 8)

/-- Where empty blocks lead: an eighth of a price below eight is nothing. -/
def settled (F P : Nat) : Nat := max F (min P 7)

theorem candidate_empty {P M : Nat} (hM : 2 ≤ M) : candidate P 0 (M / 2) = P - P / 8 := by
  unfold candidate
  rw [if_neg (by omega), if_pos (by omega), Nat.sub_zero,
    Nat.mul_div_mul_right P 8 (by omega : 0 < M / 2)]

theorem settled_decay (F P : Nat) : settled F (decay F P) = settled F P := by
  unfold settled decay
  omega

theorem decay_settled (F P : Nat) : decay F (settled F P) = settled F P := by
  unfold settled decay
  omega

/-- A price that has not settled falls, once the floor has applied to it. -/
theorem decay_lt {F P : Nat} (hF : F ≤ P) (h : P ≠ settled F P) : decay F P < P := by
  unfold settled at h
  unfold decay
  omega

/-- A run of prices under empty blocks with one floor. -/
structure EmptyRun (F : UInt64) (capacities prices : Nat → UInt64) : Prop where
  step : ∀ n, nextBaseFee (prices n) 0 (capacities n) F = some (prices (n + 1))

variable {F : UInt64} {capacities prices : Nat → UInt64}

theorem EmptyRun.decay (h : EmptyRun F capacities prices) (n : Nat) :
    (prices (n + 1)).toNat = decay F.toNat (prices n).toNat := by
  obtain ⟨hargs, hnext⟩ := nextBaseFee_eq_some_iff.mp (h.step n)
  have hM : 2 ≤ (capacities n).toNat := Nat.le_trans (by decide) hargs.capacity.1
  rw [hnext]
  change max _ (candidate _ 0 _) = _
  rw [candidate_empty hM]
  rfl

theorem EmptyRun.floor_le (h : EmptyRun F capacities prices) (n : Nat) :
    F.toNat ≤ (prices (n + 1)).toNat := by
  rw [h.decay n]
  exact Nat.le_max_left _ _

theorem EmptyRun.settled (h : EmptyRun F capacities prices) (n : Nat) :
    settled F.toNat (prices n).toNat = settled F.toNat (prices 0).toNat := by
  induction n with
  | zero => rfl
  | succ n ih => rw [h.decay n, settled_decay, ih]

/-- Once the floor has applied, no empty block raises the price. -/
theorem EmptyRun.antitone (h : EmptyRun F capacities prices) {n : Nat}
    (hF : F.toNat ≤ (prices n).toNat) : (prices (n + 1)).toNat ≤ (prices n).toNat := by
  rw [h.decay n]
  unfold V1ResourceFee.decay
  omega

/-- **Empty blocks settle the price** at the floor, or at seven if the floor is lower. -/
theorem EmptyRun.settles (h : EmptyRun F capacities prices) :
    ∃ N, ∀ n, N ≤ n → (prices n).toNat = V1ResourceFee.settled F.toNat (prices 0).toNat := by
  -- from the second price on, the price itself is the rank
  have hreached : ∀ rank n, (prices (n + 1)).toNat = rank →
      ∃ N, (prices N).toNat = V1ResourceFee.settled F.toNat (prices 0).toNat := by
    intro rank
    induction rank using Nat.strongRecOn with
    | ind rank ih =>
      intro n hn
      by_cases hdone : (prices (n + 1)).toNat
          = V1ResourceFee.settled F.toNat (prices (n + 1)).toNat
      · exact ⟨n + 1, hdone.trans (h.settled (n + 1))⟩
      · have hlt := decay_lt (h.floor_le n) hdone
        rw [← h.decay (n + 1), hn] at hlt
        exact ih _ hlt (n + 1) rfl
  obtain ⟨N, hN⟩ := hreached _ 0 rfl
  refine ⟨N, fun n hn => ?_⟩
  induction n, hn using Nat.le_induction with
  | base => exact hN
  | succ n _ ih => rw [h.decay n, ih, decay_settled]

--
-- The law
--

/-- **The law of the congestion price.** A step is the formula, above the floor and positive,
monotone in the parent's units and price, up by at most the share of the upper half (an eighth
for an even capacity) or one, down by at most an eighth; empty blocks under one floor never
raise a price the floor has applied to, and settle it. -/
theorem congestion_price_law :
    (∀ P U M F next, nextBaseFee P U M F = some next →
      next.toNat = max F.toNat (candidate P.toNat U.toNat (M.toNat / 2)) ∧
      F ≤ next ∧ 0 < next ∧
      candidate P.toNat U.toNat (M.toNat / 2)
        ≤ P.toNat + max 1 (P.toNat * (M.toNat - M.toNat / 2) / (8 * (M.toNat / 2))) ∧
      (M.toNat % 2 = 0 →
        candidate P.toNat U.toNat (M.toNat / 2) ≤ P.toNat + max 1 (P.toNat / 8)) ∧
      P.toNat - P.toNat / 8 ≤ candidate P.toNat U.toNat (M.toNat / 2)) ∧
    (∀ P U M F, (nextBaseFee P U M F).isSome = true ↔
      Arguments P.toNat U.toNat M.toNat F.toNat) ∧
    (∀ P U U' M F next next', U ≤ U' → nextBaseFee P U M F = some next →
      nextBaseFee P U' M F = some next' → next ≤ next') ∧
    (∀ P P' U M F next next', P ≤ P' → nextBaseFee P U M F = some next →
      nextBaseFee P' U M F = some next' → next ≤ next') ∧
    ∀ F capacities prices, EmptyRun F capacities prices →
      (∀ n, prices (n + 2) ≤ prices (n + 1)) ∧ (F ≤ prices 0 → prices 1 ≤ prices 0) ∧
      ∃ N, ∀ n, N ≤ n → (prices n).toNat = max F.toNat (min (prices 0).toNat 7) := by
  refine ⟨?_, ?_, ?_, ?_, ?_⟩
  · intro P U M F next h
    obtain ⟨hargs, hnext⟩ := nextBaseFee_eq_some_iff.mp h
    have hfloor : F.toNat ≤ next.toNat := by
      rw [hnext]
      exact Nat.le_max_left _ _
    refine ⟨hnext, UInt64.le_iff_toNat_le.mpr hfloor, ?_, candidate_rise hargs.used, ?_,
      candidate_fall hargs.price.2⟩
    · exact UInt64.lt_iff_toNat_lt.mpr (Nat.lt_of_lt_of_le hargs.floor hfloor)
    · intro heven
      have hpos : 0 < M.toNat := Nat.lt_of_lt_of_le (by decide) hargs.capacity.1
      have hrise := @candidate_rise P.toNat U.toNat M.toNat hargs.used
      rwa [rise_of_even heven hpos] at hrise
  · intro P U M F
    rw [Option.isSome_iff_exists]
    constructor
    · rintro ⟨next, h⟩
      exact (nextBaseFee_eq_some_iff.mp h).1
    · intro hargs
      refine ⟨UInt64.ofNat (max F.toNat (candidate P.toNat U.toNat (M.toNat / 2))),
        nextBaseFee_eq_some_iff.mpr ⟨hargs, UInt64.toNat_ofNat_of_lt' ?_⟩⟩
      have hcandidate := @candidate_le P.toNat U.toNat (M.toNat / 2) hargs.price.2
      have hfloor := F.toNat_lt
      unfold kMaxU64 at hcandidate
      exact Nat.max_lt.mpr ⟨hfloor, Nat.lt_of_le_of_lt hcandidate (by decide)⟩
  · intro P U U' M F next next' hle h h'
    obtain ⟨hargs, hnext⟩ := nextBaseFee_eq_some_iff.mp h
    obtain ⟨-, hnext'⟩ := nextBaseFee_eq_some_iff.mp h'
    have hmono := @candidate_mono_used _ _ _ (M.toNat / 2) hargs.price.2
      (UInt64.le_iff_toNat_le.mp hle)
    rw [UInt64.le_iff_toNat_le, hnext, hnext']
    omega
  · intro P P' U M F next next' hle h h'
    obtain ⟨-, hnext⟩ := nextBaseFee_eq_some_iff.mp h
    obtain ⟨-, hnext'⟩ := nextBaseFee_eq_some_iff.mp h'
    have hmono := @candidate_mono_price _ _ U.toNat (M.toNat / 2)
      (UInt64.le_iff_toNat_le.mp hle)
    rw [UInt64.le_iff_toNat_le, hnext, hnext']
    omega
  · intro F capacities prices hrun
    refine ⟨fun n => UInt64.le_iff_toNat_le.mpr (hrun.antitone (hrun.floor_le n)), fun hF => ?_,
      hrun.settles⟩
    exact UInt64.le_iff_toNat_le.mpr (hrun.antitone (UInt64.le_iff_toNat_le.mp hF))

/-- A full parent at a price of one hundred, and empty blocks from seven with a floor of seven. -/
theorem congestion_price_law_full :
    nextBaseFee 100 5000000 5000000 1 = some 112 ∧
      candidate 100 5000000 2500000 ≤ 100 + max 1 (100 / 8) ∧
      ∃ N, ∀ n, N ≤ n → ((fun _ => 7 : Nat → UInt64) n).toNat = max 7 (min 7 7) := by
  have hfull : nextBaseFee 100 5000000 5000000 1 = some 112 := by decide +kernel
  have hrun : EmptyRun 7 (fun _ => 5000000) (fun _ => 7) := ⟨fun _ => by decide +kernel⟩
  obtain ⟨hstep, -, -, -, hempty⟩ := congestion_price_law
  obtain ⟨-, -, -, -, heven, -⟩ := hstep 100 5000000 5000000 1 112 hfull
  exact ⟨hfull, heven rfl, (hempty 7 _ _ hrun).2.2⟩

/-- **Seven is stuck above a floor of one, and an odd capacity rises by more than an eighth.** -/
theorem seven_is_stuck :
    (∃ prices : Nat → UInt64, EmptyRun 1 (fun _ => 5000000) prices ∧ ∀ n, prices n ≠ 1) ∧
      nextBaseFee 20000000 5000001 5000001 1 = some 22500001 ∧
      ¬ (22500001 : Nat) ≤ 20000000 + max 1 (20000000 / 8) := by
  have hstuck : (7 : UInt64) ≠ 1 := by decide
  exact ⟨⟨fun _ => 7, ⟨fun _ => by decide +kernel⟩, fun _ => hstuck⟩, by decide +kernel, by decide⟩

end Nodo.Model.V1ResourceFee
