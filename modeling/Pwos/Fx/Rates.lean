import Pwos.Fx.UnitPrice
import Pwos.Lib.First
import Pwos.Lib.Runs
import Pwos.Lib.Upsert

/-!
# Recorded exchange rates

`features/fx/rates.ts`: rates are recorded for a date, in any order of dates, and the rate of a
pair is looked up as of a date. `toUpperCase` of the language is a parameter. The look-up does
not use the date it is given, so it answers as of that date exactly when nothing later has been
recorded (`getLatestFxRate_iff`).
-/

namespace Pwos

structure RecordFxRateInput where
  baseCurrency : String
  quoteCurrency : String
  /-- As typed. -/
  rate : List Char
  source : Option String := none
  effectiveDate : Option IsoDate := none
  deriving DecidableEq, Repr

/-- What the column `rate` holds: 20 digits before the point. -/
def fitsMoney (rate : Decimal) : Prop := rate.raw.natAbs < 10 ^ 38

instance : DecidablePred fitsMoney := fun _ => inferInstanceAs (Decidable (_ < _))

section Rates
variable (toUpperCase : String → String)

/-- The row that is written. -/
def RecordFxRateInput.row (input : RecordFxRateInput) (today : IsoDate) : ExchangeRate where
  baseCurrency := toUpperCase input.baseCurrency
  quoteCurrency := toUpperCase input.quoteCurrency
  rate := .parse input.rate
  source := some (input.source.getD "manual")
  effectiveDate := input.effectiveDate.getD today

/-- Rates of one pair and one date. -/
def ExchangeRate.sameKey (r m : ExchangeRate) : Bool :=
  r.baseCurrency = m.baseCurrency && r.quoteCurrency = m.quoteCurrency &&
    r.effectiveDate = m.effectiveDate

/-- `on conflict do update set rate, source`. -/
def ExchangeRate.overwrite (r m : ExchangeRate) : ExchangeRate :=
  { r with rate := m.rate, source := m.source }

/-- Record a new rate: the row and the table after it. -/
def recordFxRate (input : RecordFxRateInput) (today : IsoDate) (rates : List ExchangeRate) :
    Except AppError (ExchangeRate × List ExchangeRate) :=
  let row := input.row toUpperCase today
  if row.rate ≤ 0 then .error (.failure "نرخ تبدیل ارز باید بزرگ‌تر از صفر باشد.")
  else if ¬ fitsMoney row.rate then .error (.failure "numeric field overflow")
  else .ok (row, upserted (·.sameKey row) (·.overwrite row) row rates)

def ExchangeRate.IsPair (r : ExchangeRate) (baseCurrency quoteCurrency : String) : Prop :=
  r.baseCurrency = toUpperCase baseCurrency ∧ r.quoteCurrency = toUpperCase quoteCurrency

instance (r : ExchangeRate) (baseCurrency quoteCurrency : String) :
    Decidable (r.IsPair toUpperCase baseCurrency quoteCurrency) :=
  inferInstanceAs (Decidable (_ ∧ _))

/-- Look up the rate of a pair. The date is computed and not used. -/
def getLatestFxRate (rates : List ExchangeRate) (baseCurrency quoteCurrency : String)
    (asOfDate : Option IsoDate) (today : IsoDate) : Option ExchangeRate :=
  let _date := asOfDate.getD today
  latestBy (·.effectiveDate) (rates.filter (·.IsPair toUpperCase baseCurrency quoteCurrency))

/-! ### Runs -/

/-- A call of `recordFxRate` on a day. -/
structure RecordCall where
  input : RecordFxRateInput
  today : IsoDate
  deriving DecidableEq, Repr

def RecordCall.row (call : RecordCall) : ExchangeRate := call.input.row toUpperCase call.today

/-- A call that throws leaves the table as it is. -/
def RecordCall.exec (call : RecordCall) (rates : List ExchangeRate) : List ExchangeRate :=
  match recordFxRate toUpperCase call.input call.today rates with
  | .ok (_, rates') => rates'
  | .error _ => rates

/-- The rates the calls have recorded, in order. -/
def recorded (calls : List RecordCall) : List ExchangeRate :=
  (calls.map (·.row toUpperCase)).filter fun r => 0 < r.rate ∧ fitsMoney r.rate

/-- The answer as of `date`: the rate last recorded for the greatest date on or before it. -/
def AnswersAsOf (rows : List ExchangeRate) (baseCurrency quoteCurrency : String) (date : IsoDate) :
    Option ExchangeRate → Prop
  | none => ∀ r ∈ rows, r.IsPair toUpperCase baseCurrency quoteCurrency → date < r.effectiveDate
  | some r => r.IsPair toUpperCase baseCurrency quoteCurrency ∧ r.effectiveDate ≤ date ∧
      LastOf ExchangeRate.sameKey rows r ∧
      ∀ m ∈ rows, m.IsPair toUpperCase baseCurrency quoteCurrency → m.effectiveDate ≤ date →
        m.effectiveDate ≤ r.effectiveDate

variable {toUpperCase} {calls : List RecordCall} {baseCurrency quoteCurrency : String}
  {r m : ExchangeRate} {rates : List ExchangeRate}

theorem sameKey_iff : r.sameKey m = true ↔ r.baseCurrency = m.baseCurrency ∧
    r.quoteCurrency = m.quoteCurrency ∧ r.effectiveDate = m.effectiveDate := by
  simp [ExchangeRate.sameKey, and_assoc]

theorem overwrite_eq (h : r.sameKey m = true) : r.overwrite m = m := by
  obtain ⟨hbase, hquote, hdate⟩ := sameKey_iff.mp h
  unfold ExchangeRate.overwrite
  rw [hbase, hquote, hdate]

theorem exec_eq (call : RecordCall) (rates : List ExchangeRate) :
    call.exec toUpperCase rates =
      upsertAll ExchangeRate.sameKey ExchangeRate.overwrite (recorded toUpperCase [call]) rates := by
  unfold RecordCall.exec recordFxRate
  have hrow : call.row toUpperCase = call.input.row toUpperCase call.today := rfl
  by_cases hpos : (call.row toUpperCase).rate ≤ 0
  · have hnone : recorded toUpperCase [call] = [] := by simp [recorded, hpos]
    rw [hnone, ← hrow, if_pos hpos]
    rfl
  · by_cases hfits : fitsMoney (call.row toUpperCase).rate
    · have hone : recorded toUpperCase [call] = [call.row toUpperCase] := by
        simp [recorded, lt_of_not_ge hpos, hfits]
      rw [hone, ← hrow, if_neg hpos, if_neg (not_not.mpr hfits)]
      rfl
    · have hnone : recorded toUpperCase [call] = [] := by simp [recorded, hfits]
      rw [hnone, ← hrow, if_neg hpos, if_pos hfits]
      rfl

/-- The table holds the last of each pair and date. -/
theorem mem_recorded_rates : r ∈ runAll (RecordCall.exec toUpperCase) calls [] ↔
    LastOf ExchangeRate.sameKey (recorded toUpperCase calls) r := by
  have hrun : ∀ rates, runAll (RecordCall.exec toUpperCase) calls rates =
      upsertAll ExchangeRate.sameKey ExchangeRate.overwrite (recorded toUpperCase calls) rates := by
    induction calls with
    | nil => exact fun _ => rfl
    | cons call calls ih =>
      intro rates
      have hsplit : recorded toUpperCase (call :: calls) =
          recorded toUpperCase [call] ++ recorded toUpperCase calls := by
        simp [recorded, List.filter_cons]
        grind
      rw [runAll_cons, ih, exec_eq, hsplit, upsertAll, upsertAll, upsertAll, List.foldl_append]
  rw [hrun, mem_upsertAll_overwrite fun _ _ => overwrite_eq]
  simp

/-- The row of the latest date. -/
theorem latestBy_le {rows : List ExchangeRate} (h : latestBy (·.effectiveDate) rows = some r)
    (hm : m ∈ rows) : m.effectiveDate ≤ r.effectiveDate := by
  have : Std.Total fun a b : ExchangeRate => b.effectiveDate ≤ a.effectiveDate :=
    ⟨fun a b => le_total b.effectiveDate a.effectiveDate⟩
  have : IsTrans ExchangeRate fun a b => b.effectiveDate ≤ a.effectiveDate :=
    ⟨fun _ _ _ hab hbc => hbc.trans hab⟩
  exact firstBy_le (r := fun a b : ExchangeRate => b.effectiveDate ≤ a.effectiveDate) h hm

/-- A pair with a recorded rate has a row at least as late. -/
theorem exists_row (hm : m ∈ recorded toUpperCase calls)
    (hpair : m.IsPair toUpperCase baseCurrency quoteCurrency) :
    ∃ r ∈ (runAll (RecordCall.exec toUpperCase) calls []).filter
      (·.IsPair toUpperCase baseCurrency quoteCurrency), r.effectiveDate = m.effectiveDate := by
  have htrans : ∀ r m n : ExchangeRate, r.sameKey m = true → m.sameKey n = true →
      r.sameKey n = true := by
    intro r m n hrm hmn
    rw [sameKey_iff] at hrm hmn ⊢
    grind
  obtain ⟨r, hr, hkey⟩ := exists_lastOf (fun r => sameKey_iff.mpr ⟨rfl, rfl, rfl⟩) htrans hm
  obtain ⟨hbase, hquote, hdate⟩ := sameKey_iff.mp hkey
  refine ⟨r, List.mem_filter.mpr ⟨mem_recorded_rates.mpr hr, ?_⟩, hdate.symm⟩
  simpa [ExchangeRate.IsPair, ← hbase, ← hquote] using hpair

/-- After any calls, the look-up answers as of its date if and only if no rate of the pair is
recorded for a later date. -/
theorem getLatestFxRate_iff (toUpperCase : String → String) (calls : List RecordCall)
    (baseCurrency quoteCurrency : String) (asOfDate : Option IsoDate) (today : IsoDate) :
    AnswersAsOf toUpperCase (recorded toUpperCase calls) baseCurrency quoteCurrency
      (asOfDate.getD today)
      (getLatestFxRate toUpperCase (runAll (RecordCall.exec toUpperCase) calls [])
        baseCurrency quoteCurrency asOfDate today) ↔
    ∀ r ∈ recorded toUpperCase calls, r.IsPair toUpperCase baseCurrency quoteCurrency →
      r.effectiveDate ≤ asOfDate.getD today := by
  unfold getLatestFxRate
  cases hlatest : latestBy (·.effectiveDate) ((runAll (RecordCall.exec toUpperCase) calls []).filter
    (·.IsPair toUpperCase baseCurrency quoteCurrency)) with
  | none =>
    have hempty := firstBy_eq_none_iff.mp hlatest
    have hno : ∀ r ∈ recorded toUpperCase calls,
        ¬ r.IsPair toUpperCase baseCurrency quoteCurrency := by
      intro r hr hpair
      obtain ⟨m, hm, -⟩ := exists_row hr hpair
      rw [hempty] at hm
      cases hm
    exact ⟨fun _ r hr hpair => absurd hpair (hno r hr), fun _ r hr hpair => absurd hpair (hno r hr)⟩
  | some r =>
    obtain ⟨hrow, hpair⟩ := List.mem_filter.mp (mem_of_firstBy hlatest)
    have hlast := mem_recorded_rates.mp hrow
    have hmax : ∀ m ∈ recorded toUpperCase calls, m.IsPair toUpperCase baseCurrency quoteCurrency →
        m.effectiveDate ≤ r.effectiveDate := by
      intro m hm hmpair
      obtain ⟨n, hn, hdate⟩ := exists_row hm hmpair
      exact hdate ▸ latestBy_le hlatest hn
    constructor
    · rintro ⟨-, hdate, -, -⟩ m hm hmpair
      exact (hmax m hm hmpair).trans hdate
    · intro hnone
      refine ⟨of_decide_eq_true hpair, hnone r hlast.mem (of_decide_eq_true hpair), hlast, ?_⟩
      exact fun m hm hmpair _ => hmax m hm hmpair

/-- A rate is recorded on day 10 and one on day 20. -/
def twoRates : List RecordCall :=
  [⟨⟨"USD", "IRT", ['9'], none, none⟩, 10⟩, ⟨⟨"USD", "IRT", ['8'], none, none⟩, 20⟩]

/-- As of day 15 the look-up gives the rate of day 20. -/
theorem getLatestFxRate_later :
    ¬ AnswersAsOf upper (recorded upper twoRates) "USD" "IRT" ((some 15).getD 20)
      (getLatestFxRate upper (runAll (RecordCall.exec upper) twoRates []) "USD" "IRT"
        (some 15) 20) := by
  have hlatest : getLatestFxRate upper (runAll (RecordCall.exec upper) twoRates []) "USD" "IRT"
      (some 15) 20 = some ⟨"USD", "IRT", 20, .ofInt 8, some "manual"⟩ := by
    decide
  rw [hlatest]
  rintro ⟨-, hdate, -⟩
  exact absurd hdate (by decide)

end Rates

end Pwos
