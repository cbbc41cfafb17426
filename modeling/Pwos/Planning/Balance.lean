import Pwos.Planning.PayInstallment

/-!
# Installments as balances

Above the code: an installment with a Toman contract is an amount to fill up, in whole
Toman, never beyond the contract. `applyPartialPayment` fills a balance
(`applyPartialPayment_iff`), and the columns of a payment are the balance after it
(`Holds.settle`).
-/

namespace Pwos

/-- A contract and what has been paid of it, in whole Toman. -/
structure Balance where
  contract : Nat
  paid : Nat
  pos : 0 < contract
  within : paid ≤ contract

namespace Balance

def left (b : Balance) : Nat := b.contract - b.paid

/-- Nothing has been paid. -/
def fresh (contract : Nat) (h : 0 < contract) : Balance := ⟨contract, 0, h, Nat.zero_le _⟩

def fill (b : Balance) (k : Nat) (h : k ≤ b.left) : Balance :=
  ⟨b.contract, b.paid + k, b.pos, by have := b.within; unfold left at h; omega⟩

def Full (b : Balance) : Prop := b.paid = b.contract

instance (b : Balance) : Decidable b.Full := inferInstanceAs (Decidable (_ = _))

theorem full_iff_left (b : Balance) : b.Full ↔ b.left = 0 := by
  have := b.within
  unfold Full left
  omega

end Balance

/-- The columns of the row are the balance. -/
structure Installment.Holds (i : Installment) (b : Balance) : Prop where
  contract : i.amountToman = some (.ofInt b.contract)
  paid : i.paidToman.getD 0 = .ofInt b.paid
  closed : i.status = .paid ↔ b.Full

namespace Installment.Holds
variable {i : Installment} {b : Balance} {contractual : Decimal}

theorem contractual_eq (h : i.Holds b) {rate : Decimal} (hc : contractualToman i rate = .ok contractual) :
    contractual = .ofInt b.contract := by
  rw [contractualToman, h.contract] at hc
  exact (Except.ok.inj hc).symm

theorem paidSoFar (h : i.Holds b) (c : Decimal) : paidSoFarToman (i.balanceRow c) = .ofInt b.paid := by
  have hnn : ¬ Decimal.ofInt b.paid < 0 := by
    rw [← Decimal.ofInt_zero, Decimal.ofInt_lt]; omega
  unfold paidSoFarToman Installment.balanceRow
  simp only [h.paid, if_neg hnn]

/-- What remains of the row is what is left of the balance. -/
theorem remaining (h : i.Holds b) :
    remainingToman (i.balanceRow (.ofInt b.contract)) = .ofInt b.left := by
  have hw := b.within
  have hstatus : (i.balanceRow (.ofInt b.contract)).status = i.status := rfl
  have hamount : (i.balanceRow (.ofInt b.contract)).amountToman = some (.ofInt b.contract) := by
    simp [Installment.balanceRow, Decimal.toFixed_ofInt]
  unfold remainingToman
  rw [hstatus, hamount, h.paidSoFar]
  by_cases hp : i.status = .paid
  · rw [if_pos hp, b.full_iff_left.mp (h.closed.mp hp)]
    simp
  · have hsub : Decimal.ofInt b.contract - .ofInt b.paid = .ofInt b.left := by
      rw [Decimal.ofInt_sub, Balance.left, Nat.cast_sub hw]
    have hnn : ¬ Decimal.ofInt b.left < 0 := by
      rw [← Decimal.ofInt_zero, Decimal.ofInt_lt]; omega
    simp only [if_neg hp, hsub, if_neg hnn]

end Installment.Holds

/-- The state a payment of `k` whole Toman leaves a balance in. -/
def Balance.afterPaying (b : Balance) (k : Nat) : PartialPayment :=
  { status := if b.paid + k = b.contract then .paid else .partlyPaid
    paidToman := .ofInt (b.paid + k : Nat), remainingToman := .ofInt (b.left - k : Nat) }

/-- A settlement is accepted if it is a positive whole amount that is still owed. -/
theorem applyPartialPayment_iff {i : Installment} {b : Balance} (h : i.Holds b)
    (pay : Decimal) (next : PartialPayment) :
    applyPartialPayment (i.balanceRow (.ofInt b.contract)) (pay.toFixed 0) = .ok next ↔
      ∃ k : Nat, 0 < k ∧ k ≤ b.left ∧ pay.toFixed 0 = .ofInt k ∧ next = b.afterPaying k := by
  have hw := b.within
  have hstatus : (i.balanceRow (.ofInt b.contract)).status = i.status := rfl
  obtain ⟨n, hn⟩ := Decimal.exists_toFixed_zero pay
  unfold applyPartialPayment
  rw [h.remaining, h.paidSoFar, hn, hstatus]
  simp only [← Decimal.ofInt_zero, Decimal.ofInt_le, Decimal.ofInt_lt, Decimal.ofInt_sub,
    Decimal.ofInt_add, Decimal.toFixed_ofInt, Decimal.ofInt_inj]
  by_cases hp : i.status = .paid
  · have hz := b.full_iff_left.mp (h.closed.mp hp)
    rw [if_pos hp]
    refine ⟨fun hf => (by cases hf), ?_⟩
    rintro ⟨k, hk, hle, -, -⟩
    omega
  rw [if_neg hp]
  have hleft : 0 < b.left := Nat.pos_of_ne_zero fun hz =>
    hp (h.closed.mpr (b.full_iff_left.mpr hz))
  by_cases hn0 : n ≤ 0
  · rw [if_pos hn0]
    refine ⟨fun hf => (by cases hf), ?_⟩
    rintro ⟨k, hk, -, rfl, -⟩
    omega
  rw [if_neg hn0, if_neg (by omega)]
  by_cases hover : (b.left : Int) < n
  · rw [if_pos hover]
    refine ⟨fun hf => (by cases hf), ?_⟩
    rintro ⟨k, -, hle, rfl, -⟩
    omega
  rw [if_neg hover]
  lift n to Nat using by omega with k
  have hafter : (⟨if (b.left : Int) - k = 0 then .paid else .partlyPaid,
      .ofInt (b.paid + k), .ofInt (b.left - k)⟩ : PartialPayment) = b.afterPaying k := by
    have hiff : (b.left : Int) - k = 0 ↔ b.paid + k = b.contract := by
      unfold Balance.left at *; omega
    simp only [hiff, Balance.afterPaying]
    rw [Nat.cast_sub (by omega : k ≤ b.left), Nat.cast_add]
  rw [hafter]
  constructor
  · intro hok
    exact ⟨k, by omega, by omega, rfl, (Except.ok.inj hok).symm⟩
  · rintro ⟨m, -, -, hm, rfl⟩
    rw [Nat.cast_inj.mp hm]

/-- The row after a payment is the balance, filled up by it. -/
theorem Installment.Holds.settle {i : Installment} {b : Balance} (h : i.Holds b) {k : Nat}
    (hk : k ≤ b.left) {c : SettledColumns} (hstatus : c.status = (b.afterPaying k).status)
    (hpaid : c.paidToman = (b.afterPaying k).paidToman) : (i.settle c).Holds (b.fill k hk) where
  contract := h.contract
  paid := by simp [Installment.settle, hpaid, Balance.afterPaying, Balance.fill]
  closed := by
    unfold Installment.settle Balance.Full Balance.fill
    rw [hstatus, Balance.afterPaying]
    simp only
    split <;> simp_all

end Pwos
