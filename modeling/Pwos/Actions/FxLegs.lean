import Pwos.Actions.CashLegs

/-!
# The legs of a conversion and its entry

`resolveFxBookLegs` and `recordFx` both check a conversion against the rate, the first by the way
it finds a missing quantity, the second by dividing each quantity by the rate. They agree about
conversions between Toman and another unit whose quantities agree. The fee balances when an
account takes it.
-/

namespace Pwos

/-! ## Division by a rate in units -/

section Units
variable {f t r one δ : Int}

/-- A quantity bought at a rate is divided by the rate again: less than the tolerance is lost. -/
theorem sub_div_of_mul_div (hone : 0 < one) (hr : 0 < r) (hδ : one ≤ δ * r) :
    |t * r / one * one / r - t| ≤ δ + 1 := by
  have hbelow : t * r / one * one ≤ t * r := Int.ediv_mul_le _ hone.ne'
  have habove : t * r < (t * r / one + 1) * one := Int.lt_ediv_add_one_mul_self _ hone
  generalize t * r / one = q at *
  have hle : q * one / r ≤ t := Int.ediv_le_of_le_mul hr hbelow
  have hge : t - (δ + 1) ≤ q * one / r := by
    rw [Int.le_ediv_iff_mul_le hr]
    have hexpand : (t - (δ + 1)) * r = t * r - δ * r - r := by ring
    have hone' : (q + 1) * one = q * one + one := by ring
    omega
  rw [abs_le]
  omega

/-- Dividing by a rate is monotone and moves all quantities the same way. -/
theorem div_rate_cases (hone : 0 < one) (hr : 0 < r) (hf : 0 ≤ f) (ht : 0 ≤ t) :
    (f ≤ t → f * one / r ≤ t * one / r) ∧ (t ≤ f → t * one / r ≤ f * one / r) ∧
      (f * one / r ≤ f ∧ t * one / r ≤ t ∨ f ≤ f * one / r ∧ t ≤ t * one / r) := by
  refine ⟨fun h => Int.ediv_le_ediv hr (Int.mul_le_mul_of_nonneg_right h hone.le),
    fun h => Int.ediv_le_ediv hr (Int.mul_le_mul_of_nonneg_right h hone.le), ?_⟩
  rcases le_total one r with h | h
  · exact .inl ⟨Int.ediv_le_of_le_mul hr (Int.mul_le_mul_of_nonneg_left h hf),
      Int.ediv_le_of_le_mul hr (Int.mul_le_mul_of_nonneg_left h ht)⟩
  · exact .inr ⟨Int.le_ediv_of_mul_le hr (Int.mul_le_mul_of_nonneg_left h hf),
      Int.le_ediv_of_mul_le hr (Int.mul_le_mul_of_nonneg_left h ht)⟩

end Units

theorem Decimal.raw_div_nonneg {a b : Decimal} (ha : 0 ≤ a) (hb : 0 < b) :
    (a.div b).raw = a.raw * ONE / b.raw := by
  have hraw : 0 < b.raw := Decimal.lt_iff.mp hb
  have hnum : 0 ≤ a.raw * ONE := Int.mul_nonneg ha one_pos.le
  unfold div
  rw [if_neg hraw.ne']
  exact Int.tdiv_eq_ediv_of_nonneg hnum

theorem Decimal.raw_mul_nonneg {a b : Decimal} (ha : 0 ≤ a) (hb : 0 ≤ b) :
    (a.mul b).raw = a.raw * b.raw / ONE := by
  rw [raw_mul]
  exact Int.tdiv_eq_ediv_of_nonneg (Int.mul_nonneg ha hb)

/-- The Toman at the rate are about the other quantity. -/
def closeAt (rate toman other : Decimal) : Prop := (toman.div rate - other).abs ≤ FX_QTY_TOLERANCE

instance (rate toman other : Decimal) : Decidable (closeAt rate toman other) :=
  inferInstanceAs (Decidable (_ ≤ _))

/-- 10^-16, the smallest rate at which truncation stays below the tolerance. -/
def LEAST_RATE : Decimal := ⟨100⟩

/-- Toman found from another quantity are about that quantity again. -/
theorem closeAt_mul {rate q : Decimal} (hrate : LEAST_RATE ≤ rate) (hq : 0 ≤ q) :
    closeAt rate (q.mul rate) q := by
  have hraw : 100 ≤ rate.raw := hrate
  have hpos : 0 < rate := Decimal.lt_iff.mpr (by rw [Decimal.raw_zero]; omega)
  have hone : (ONE : Int) = 10 ^ 18 := rfl
  have hclose := sub_div_of_mul_div (t := q.raw) (r := rate.raw) (δ := 10 ^ 16) Decimal.one_pos
    (Decimal.lt_iff.mp hpos) (by rw [hone]; omega)
  unfold closeAt FX_QTY_TOLERANCE
  rw [Decimal.le_iff, Decimal.raw_abs, Decimal.raw_sub,
    Decimal.raw_div_nonneg (Decimal.mul_nonneg hq hpos.le) hpos,
    Decimal.raw_mul_nonneg hq hpos.le]
  exact hclose.trans (by norm_num)

theorem closeAt_div {rate f : Decimal} : closeAt rate f (f.div rate) := by
  unfold closeAt FX_QTY_TOLERANCE
  rw [sub_self]
  decide

/-! ## What the entry checks -/

/-- Quantities that are close both ways are close themselves, also after division. -/
theorem close_of_closeAt {rate f t : Decimal} (hrate : 0 < rate) (hf : 0 ≤ f) (ht : 0 ≤ t)
    (hfrom : closeAt rate f t) (hto : closeAt rate t f) :
    (f - t).abs ≤ FX_QTY_TOLERANCE ∧ (t.div rate - t).abs ≤ FX_QTY_TOLERANCE := by
  have hr := Decimal.lt_iff.mp hrate
  unfold closeAt at hfrom hto
  simp only [Decimal.le_iff, Decimal.raw_abs, Decimal.raw_sub, Decimal.raw_div_nonneg hf hrate,
    Decimal.raw_div_nonneg ht hrate, Decimal.raw_zero] at hfrom hto hf ht ⊢
  obtain ⟨hmono, hmono', hside⟩ := div_rate_cases Decimal.one_pos hr hf ht
  generalize f.raw * ONE / rate.raw = qf at *
  generalize t.raw * ONE / rate.raw = qt at *
  rw [abs_le] at hfrom hto
  rw [abs_le, abs_le]
  omega

namespace FxCmd
variable {cmd : FxCmd} {rate : Decimal}

theorem run_checkRate (hrate : cmd.rateIrtPerUsd = some rate) (db : Db) :
    cmd.checkRate.run db =
      if 0 < rate then
        if cmd.fromMatchesTo rate ∨ cmd.toMatchesFrom rate then
          if (cmd.bookValue - if cmd.fromMatchesTo rate then cmd.toQuantity
              else cmd.fromQuantity).abs ≤ FX_QTY_TOLERANCE ∨
            (cmd.bookValue - cmd.fromQuantity.div rate).abs ≤ FX_QTY_TOLERANCE then .ok ((), db)
          else .error .fxBookMismatch
        else .error .fxQuantitiesMismatch
      else .error .fxRateInvalid := by
  simp only [checkRate, hrate, Tx.run_require_bind, Tx.run_require]

theorem abs_self_sub (a : Decimal) : (a - a).abs ≤ FX_QTY_TOLERANCE := by
  rw [sub_self]
  decide

/-- Toman leave. -/
theorem checkRate_from (hrate : cmd.rateIrtPerUsd = some rate) (hpos : 0 < rate)
    (hclose : closeAt rate cmd.fromQuantity cmd.toQuantity)
    (hbook : cmd.bookValue = cmd.toQuantity ∨ cmd.bookValue = cmd.fromQuantity.div rate) (db : Db) :
    cmd.checkRate.run db = .ok ((), db) := by
  have hfrom : cmd.fromMatchesTo rate := hclose
  rw [run_checkRate hrate, if_pos hpos, if_pos (.inl hfrom), if_pos hfrom, if_pos]
  rcases hbook with hbook | hbook
  · exact .inl (hbook ▸ abs_self_sub _)
  · exact .inr (hbook ▸ abs_self_sub _)

/-- Toman arrive. -/
theorem checkRate_to (hrate : cmd.rateIrtPerUsd = some rate) (hpos : 0 < rate)
    (hf : 0 ≤ cmd.fromQuantity) (ht : 0 ≤ cmd.toQuantity)
    (hclose : closeAt rate cmd.toQuantity cmd.fromQuantity)
    (hbook : cmd.bookValue = cmd.fromQuantity ∨ cmd.bookValue = cmd.toQuantity.div rate) (db : Db) :
    cmd.checkRate.run db = .ok ((), db) := by
  have hto : cmd.toMatchesFrom rate := hclose
  rw [run_checkRate hrate, if_pos hpos, if_pos (.inr hto)]
  by_cases hfrom : cmd.fromMatchesTo rate
  · have hboth := close_of_closeAt hpos hf ht hfrom hclose
    rw [if_pos hfrom, if_pos]
    rcases hbook with hbook | hbook
    · exact .inl (hbook ▸ hboth.1)
    · exact .inl (hbook ▸ hboth.2)
  · rw [if_neg hfrom, if_pos]
    rcases hbook with hbook | hbook
    · exact .inl (hbook ▸ abs_self_sub _)
    · exact .inl (hbook ▸ hclose)

/-! ## What the entry moves -/

/-- The dollars of the lines add up to the fee that no account takes. -/
theorem sum_baseValue (hfee : 0 ≤ cmd.feeBase) :
    (cmd.input.postings.map DraftPosting.baseValue).sum =
      if cmd.feeAccountId.isSome then 0 else -cmd.feeBase := by
  have hlegs : cmd.fromLine.baseValue + cmd.toLine.baseValue = -cmd.feeBase := by
    unfold fromLine toLine
    dsimp only
    split <;> abel
  have hsum : (cmd.input.postings.map DraftPosting.baseValue).sum =
      -cmd.feeBase + (cmd.feeLines.map DraftPosting.baseValue).sum := by
    simp only [input, List.cons_append, List.nil_append, List.map_cons, List.sum_cons]
    rw [← add_assoc, hlegs]
  rw [hsum]
  unfold feeLines
  cases cmd.feeAccountId with
  | none => simp
  | some a =>
    by_cases hpos : 0 < cmd.feeBase
    · simp [hpos]
    · have hzero : cmd.feeBase = 0 := le_antisymm (not_lt.mp hpos) hfee
      simp [hzero]

/-- What the lines move of an asset. -/
def moved (cmd : FxCmd) (assetId : Uuid) : Decimal :=
  ((cmd.input.postings.filter (·.assetId = assetId)).map DraftPosting.quantity).sum

/-- A fee in the payer's unit that is booked reaches the fee account whole: in every asset the
lines move what the conversion moves. -/
theorem moved_eq {fee : Decimal} (hne : cmd.fromAssetId ≠ cmd.toAssetId)
    (hnative : cmd.nativeFee = some fee) (hfee : 0 < cmd.feeBase)
    (haccount : cmd.feeAccountId.isSome = true) (x : Uuid) :
    cmd.moved x = (if x = cmd.toAssetId then cmd.toQuantity else 0) -
      (if x = cmd.fromAssetId then cmd.fromQuantity else 0) := by
  obtain ⟨a, ha⟩ := Option.isSome_iff_exists.mp haccount
  have hpaid (side : FeePaidBy) :
      cmd.paidBy side = if cmd.feePaidBy = some side then some fee else none := by
    rw [paidBy, hnative]
  have hpayer : cmd.feePaidBy = some .fromAccount ∨ cmd.feePaidBy = some .toAccount := by
    cases hby : cmd.feePaidBy with
    | none => simp [nativeFee, hby] at hnative
    | some side => cases side <;> simp
  have hlines : cmd.input.postings = [cmd.fromLine, cmd.toLine] ++ cmd.feeLines := rfl
  unfold moved
  rw [hlines]
  rcases hpayer with hby | hby <;> by_cases hfrom : x = cmd.fromAssetId
  · simp [fromLine, toLine, feeLines, hpaid, ha, hfee, hnative, hby, hfrom, hne, Ne.symm hne]
  · by_cases hto : x = cmd.toAssetId
    · simp [fromLine, toLine, feeLines, hpaid, ha, hfee, hnative, hby, hto, hne, Ne.symm hne]
    · simp [fromLine, toLine, feeLines, hpaid, ha, hfee, hnative, hby, hto, hfrom, Ne.symm hfrom,
        Ne.symm hto]
  · simp [fromLine, toLine, feeLines, hpaid, ha, hfee, hnative, hby, hfrom, hne, Ne.symm hne]
  · by_cases hto : x = cmd.toAssetId
    · simp [fromLine, toLine, feeLines, hpaid, ha, hfee, hnative, hby, hto, hne, Ne.symm hne]
    · simp [fromLine, toLine, feeLines, hpaid, ha, hfee, hnative, hby, hto, hfrom, Ne.symm hfrom,
        Ne.symm hto]

end FxCmd

/-! ## The legs that are accepted -/

namespace FxLegsInput
variable (input : FxLegsInput)

def source : String := upper input.fromSymbol
def dest : String := upper input.toSymbol

/-- The quantities that the caller gives, a Toman one also as the typed Toman. -/
def fromGiven : Option Decimal :=
  positive input.fromQuantity <|> if input.source = "IRT" then positive input.irtAmount else none
def toGiven : Option Decimal :=
  positive input.toQuantity <|> if input.dest = "IRT" then positive input.irtAmount else none

/-- Given quantities are close at the rate, and a missing quantity of the source is one of
Toman. -/
def Agree : Prop :=
  match input.fromGiven, input.toGiven with
  | some f, some t =>
    if input.source = "IRT" then closeAt input.rateIrtPerUsd f t else closeAt input.rateIrtPerUsd t f
  | some _, none => True
  | none, _ => input.source = "IRT"

end FxLegsInput

/-- What the accepted legs are. -/
theorem resolveFxBookLegs_cases {input : FxLegsInput} {legs : FxLegs}
    (h : resolveFxBookLegs input = .ok legs) :
    0 < input.rateIrtPerUsd ∧ input.source ≠ input.dest ∧
      fxBookValue input.source input.dest input.rateIrtPerUsd legs.fromQuantity legs.toQuantity =
        some legs.bookValue ∧
      (input.fromGiven <|> input.toGiven.map fun t =>
        if input.source = "IRT" then t.mul input.rateIrtPerUsd else t) = some legs.fromQuantity ∧
      (input.toGiven <|> some (if input.dest = "IRT" then legs.fromQuantity.mul input.rateIrtPerUsd
        else if input.source = "IRT" then legs.fromQuantity.div input.rateIrtPerUsd
        else legs.fromQuantity)) = some legs.toQuantity := by
  unfold resolveFxBookLegs at h
  dsimp only at h
  split at h
  · cases h
  rename_i hrate
  split at h
  · cases h
  rename_i hunits
  split at h
  · rename_i f t hf ht
    split at h
    · cases h
    rename_i book hbook
    split at h
    · cases h
    split at h
    · cases h
    cases h
    refine ⟨not_le.mp hrate, fun heq => hunits (.inr (.inr heq)), hbook, hf, ?_⟩
    rw [hf] at ht
    exact ht
  · cases h

theorem FxLegsInput.fromGiven_nonneg {input : FxLegsInput} {f : Decimal}
    (h : input.fromGiven = some f) : 0 ≤ f := given_nonneg h

theorem FxLegsInput.toGiven_nonneg {input : FxLegsInput} {t : Decimal}
    (h : input.toGiven = some t) : 0 ≤ t := given_nonneg h

/-- The Toman of accepted legs are close to the other quantity. -/
theorem closeAt_legs {input : FxLegsInput} {legs : FxLegs}
    (h : resolveFxBookLegs input = .ok legs) (hagree : input.Agree)
    (hrate : LEAST_RATE ≤ input.rateIrtPerUsd) :
    0 ≤ legs.toQuantity ∧
      (input.source = "IRT" → closeAt input.rateIrtPerUsd legs.fromQuantity legs.toQuantity) ∧
      (input.source ≠ "IRT" → input.dest = "IRT" →
        closeAt input.rateIrtPerUsd legs.toQuantity legs.fromQuantity) := by
  obtain ⟨hpos, hne, -, hfrom, hto⟩ := resolveFxBookLegs_cases h
  have hnonneg := resolveFxBookLegs_nonneg h
  unfold FxLegsInput.Agree at hagree
  cases hfg : input.fromGiven with
  | none =>
    rw [hfg] at hagree hfrom
    have hsource : input.source = "IRT" := hagree
    cases htg : input.toGiven with
    | none =>
      rw [htg] at hfrom
      cases hfrom
    | some t =>
      rw [htg] at hfrom hto
      have ht : t = legs.toQuantity := Option.some.inj hto
      have hf : t.mul input.rateIrtPerUsd = legs.fromQuantity := by
        have hf := Option.some.inj hfrom
        dsimp only at hf
        rwa [if_pos hsource] at hf
      have hnonneg := FxLegsInput.toGiven_nonneg htg
      refine ⟨ht ▸ hnonneg, fun _ => ?_, fun hother => absurd hsource hother⟩
      rw [← ht, ← hf]
      exact closeAt_mul hrate hnonneg
  | some f =>
    rw [hfg] at hagree hfrom
    have hf : f = legs.fromQuantity := Option.some.inj hfrom
    cases htg : input.toGiven with
    | none =>
      rw [htg] at hto
      have ht : (if input.dest = "IRT" then legs.fromQuantity.mul input.rateIrtPerUsd
        else if input.source = "IRT" then legs.fromQuantity.div input.rateIrtPerUsd
        else legs.fromQuantity) = legs.toQuantity := Option.some.inj hto
      refine ⟨?_, fun hsource => ?_, fun _ hdest => ?_⟩
      · rw [← ht]
        split_ifs
        · exact Decimal.mul_nonneg hnonneg hpos.le
        · exact Decimal.div_nonneg hnonneg hpos.le
        · exact hnonneg
      · rw [if_neg fun hdest => hne (hsource.trans hdest.symm), if_pos hsource] at ht
        rw [← ht]
        exact closeAt_div
      · rw [if_pos hdest] at ht
        rw [← ht]
        exact closeAt_mul hrate hnonneg
    | some t =>
      rw [htg] at hagree hto
      have ht : t = legs.toQuantity := Option.some.inj hto
      refine ⟨ht ▸ FxLegsInput.toGiven_nonneg htg, fun hsource => ?_, fun hother _ => ?_⟩
      · simpa only [if_pos hsource, hf, ht] using hagree
      · simpa only [if_neg hother, hf, ht] using hagree

/-- The command carries accepted legs, and their rate. -/
structure FxCmd.Carries (cmd : FxCmd) (input : FxLegsInput) (legs : FxLegs) : Prop where
  fromQuantity : cmd.fromQuantity = legs.fromQuantity
  toQuantity : cmd.toQuantity = legs.toQuantity
  bookValue : cmd.bookValue = legs.bookValue
  rate : cmd.rateIrtPerUsd = some input.rateIrtPerUsd

theorem checkRate_legs {input : FxLegsInput} {legs : FxLegs} {cmd : FxCmd}
    (h : resolveFxBookLegs input = .ok legs) (htoman : input.source = "IRT" ∨ input.dest = "IRT")
    (hagree : input.Agree) (hrate : LEAST_RATE ≤ input.rateIrtPerUsd) (hcmd : cmd.Carries input legs)
    (db : Db) : cmd.checkRate.run db = .ok ((), db) := by
  obtain ⟨hpos, hne, hbook, -, -⟩ := resolveFxBookLegs_cases h
  obtain ⟨hto, hsource, hdest⟩ := closeAt_legs h hagree hrate
  have hnonneg := resolveFxBookLegs_nonneg h
  obtain ⟨hf, ht, hb, hr⟩ := hcmd
  have hface : "IRT" ∉ USD_FACE := by decide
  unfold fxBookValue at hbook
  by_cases hfrom : input.source = "IRT"
  · refine FxCmd.checkRate_from hr hpos (hf ▸ ht ▸ hsource hfrom) ?_ db
    rw [hfrom, if_neg hface, if_pos rfl] at hbook
    rw [hb, ht, hf]
    split_ifs at hbook
    · exact .inl (Option.some.inj hbook).symm
    · exact .inr (Option.some.inj hbook).symm
  · have harrives := htoman.resolve_left hfrom
    refine FxCmd.checkRate_to hr hpos (hf ▸ hnonneg) (ht ▸ hto) (hf ▸ ht ▸ hdest hfrom harrives) ?_ db
    rw [harrives, if_neg hface, if_neg hfrom, if_pos rfl] at hbook
    rw [hb, ht, hf]
    split_ifs at hbook
    · exact .inl (Option.some.inj hbook).symm
    · exact .inr (Option.some.inj hbook).symm

/-- A conversion between Toman and another unit whose quantities agree is not refused as
inconsistent. Its lines balance when an account takes the fee; each side moves its quantity and
the fee it pays, and a booked fee in the payer's unit reaches the fee account whole. -/
theorem recordFx_legs {input : FxLegsInput} {legs : FxLegs} {cmd : FxCmd}
    (h : resolveFxBookLegs input = .ok legs) (htoman : input.source = "IRT" ∨ input.dest = "IRT")
    (hagree : input.Agree) (hrate : LEAST_RATE ≤ input.rateIrtPerUsd) (hcmd : cmd.Carries input legs)
    (hne : cmd.fromAssetId ≠ cmd.toAssetId) (hfee : 0 ≤ cmd.feeBase) :
    (∀ db, cmd.checkRate.run db = .ok ((), db)) ∧
      ((cmd.input.postings.map DraftPosting.baseValue).sum = 0 ↔
        cmd.feeBase = 0 ∨ cmd.feeAccountId.isSome = true) ∧
      -cmd.fromLine.quantity = legs.fromQuantity + (cmd.paidBy .fromAccount).getD 0 ∧
      cmd.toLine.quantity + (cmd.paidBy .toAccount).getD 0 = legs.toQuantity ∧
      ∀ fee, cmd.nativeFee = some fee → 0 < cmd.feeBase → cmd.feeAccountId.isSome = true →
        ∀ x, cmd.moved x = (if x = cmd.toAssetId then legs.toQuantity else 0) -
          (if x = cmd.fromAssetId then legs.fromQuantity else 0) := by
  refine ⟨checkRate_legs h htoman hagree hrate hcmd, ?_, ?_, ?_, ?_⟩
  · rw [FxCmd.sum_baseValue hfee]
    split
    · simp_all
    · rename_i haccount
      simp [haccount]
  · simp [FxCmd.fromLine, hcmd.fromQuantity]
  · simp [FxCmd.toLine, hcmd.toQuantity]
  · intro fee hnative hpos haccount x
    rw [FxCmd.moved_eq hne hnative hpos haccount, hcmd.fromQuantity, hcmd.toQuantity]

section Examples

/-- Ten thousand dollars for Toman at 100000, the Toman derived. -/
def soldDollars : FxLegsInput :=
  { fromSymbol := "USD", toSymbol := "IRT", rateIrtPerUsd := .ofInt 100000
    fromQuantity := some (.ofInt 10000) }

def soldDollarsCmd : FxCmd :=
  { entryDate := 0, description := "", fromAccountId := 1, toAccountId := 2, fromAssetId := 3
    toAssetId := 4, fromQuantity := .ofInt 10000, toQuantity := .ofInt 1000000000
    bookValue := .ofInt 10000, rateIrtPerUsd := some (.ofInt 100000), feeBase := .ofInt 2
    feeAccountId := some 5, feeQuantity := some (.ofInt 200000), feePaidBy := some .toAccount }

theorem recordFx_legs_soldDollars :
    (soldDollarsCmd.input.postings.map DraftPosting.baseValue).sum = 0 ∧
      soldDollarsCmd.moved 4 = .ofInt 1000000000 := by
  have hlegs : resolveFxBookLegs soldDollars =
      .ok ⟨.ofInt 10000, .ofInt 1000000000, .ofInt 10000⟩ := by rfl
  have hcmd : soldDollarsCmd.Carries soldDollars ⟨.ofInt 10000, .ofInt 1000000000, .ofInt 10000⟩ :=
    ⟨rfl, rfl, rfl, rfl⟩
  have h := recordFx_legs hlegs (.inr (by decide)) trivial (by decide) hcmd (by decide) (by decide)
  refine ⟨h.2.1.mpr (.inr rfl), ?_⟩
  rw [h.2.2.2.2 (.ofInt 200000) (by decide) (by decide) rfl 4]
  decide

/-- Two given quantities that disagree at the rate, and a fee that no account takes. -/
def dearDollars : FxLegsInput :=
  { fromSymbol := "IRT", toSymbol := "USD", rateIrtPerUsd := .ofInt 20000
    fromQuantity := some (.ofInt 100000000), toQuantity := some (.ofInt 4000) }

def dearDollarsCmd : FxCmd :=
  { entryDate := 0, description := "", fromAccountId := 1, toAccountId := 2, fromAssetId := 3
    toAssetId := 4, fromQuantity := .ofInt 100000000, toQuantity := .ofInt 4000
    bookValue := .ofInt 4000, rateIrtPerUsd := some (.ofInt 20000), feeBase := .ofInt 1 }

theorem recordFx_refuses_legs :
    resolveFxBookLegs dearDollars = .ok ⟨.ofInt 100000000, .ofInt 4000, .ofInt 4000⟩ ∧
      (∀ db, dearDollarsCmd.checkRate.run db = .error .fxQuantitiesMismatch) ∧
      (dearDollarsCmd.input.postings.map DraftPosting.baseValue).sum = .ofInt (-1) := by
  refine ⟨rfl, fun db => ?_, by decide⟩
  have hrate : dearDollarsCmd.rateIrtPerUsd = some (.ofInt 20000) := rfl
  rw [FxCmd.run_checkRate hrate, if_pos (by decide), if_neg (by decide)]

end Examples

end Pwos
