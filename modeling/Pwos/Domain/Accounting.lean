import Pwos.Domain.Decimal

/-!
# Double entry

`domain/accounting.ts`: the kinds of accounts and entries, draft postings, and
`assertBalanced`, the check every entry passes before it is posted.
-/

namespace Pwos

/-- Row ids. The database draws them at random; only equality and order are used. -/
abbrev Uuid := Nat

/-- Calendar days. `YYYY-MM-DD` texts compare as the days they name. -/
abbrev IsoDate := Nat

inductive AccountType where
  | asset | liability | equity | income | expense
  deriving DecidableEq, Repr

inductive EntryType where
  | transfer | buy | sell | income | expense | fx | debt | debtRepayment | installment
  | adjustment | opening
  deriving DecidableEq, Repr

structure DraftPosting where
  accountId : Uuid
  assetId : Uuid
  quantity : Decimal
  baseValue : Decimal
  memo : Option String := none
  deriving DecidableEq, Repr

/-- The ways `assertBalanced` refuses an entry. -/
inductive UnbalancedEntryError where
  | tooFewLines
  | delta (d : Decimal)
  | zeroQuantity
  deriving DecidableEq, Repr

def UnbalancedEntryError.message : UnbalancedEntryError → String
  | .tooFewLines => "سند تراز نیست. اختلاف در ارز پایه: سند باید حداقل دو ردیف داشته باشد"
  | .delta d => "سند تراز نیست. اختلاف در ارز پایه: " ++ String.ofList ((d.toFixed 6).toText)
  | .zeroQuantity => "سند تراز نیست. اختلاف در ارز پایه: مقدار ردیف نمی‌تواند صفر باشد"

/-- 1e-9 of the base currency. -/
def TOLERANCE : Decimal := ⟨10 ^ 9⟩

def assertBalanced (postings : List DraftPosting) : Except UnbalancedEntryError Unit :=
  if postings.length < 2 then .error .tooFewLines
  else
    let delta := (postings.map DraftPosting.baseValue).sum
    if TOLERANCE < delta.abs then .error (.delta delta)
    else if ∃ p ∈ postings, p.quantity = 0 then .error .zeroQuantity
    else .ok ()

/-- What an accepted entry satisfies. -/
structure Balanced (postings : List DraftPosting) : Prop where
  two : 2 ≤ postings.length
  sum : (postings.map DraftPosting.baseValue).sum.abs ≤ TOLERANCE
  nonzero : ∀ p ∈ postings, p.quantity ≠ 0

theorem assertBalanced_ok {postings : List DraftPosting} :
    assertBalanced postings = .ok () ↔ Balanced postings := by
  unfold assertBalanced
  constructor
  · intro h
    split at h
    · cases h
    simp only at h
    split at h
    · cases h
    split at h
    · cases h
    rename_i h2 hs hz
    exact ⟨by omega, not_lt.mp hs, fun p hp hq => hz ⟨p, hp, hq⟩⟩
  · rintro ⟨h2, hs, hz⟩
    rw [if_neg (by omega)]
    simp only
    rw [if_neg (not_lt.mpr hs), if_neg fun ⟨p, hp, hq⟩ => hz p hp hq]

end Pwos
