import Pwos.Ledger.CommandRuns

/-!
# Counter-legs are elsewhere

The account a counter-leg is booked on is found by its code, or made. An account that has
none of those codes is never it, and stays as it is.
-/

namespace Pwos

/-- The account is there, and has none of the codes. -/
structure Db.Apart (x : Uuid) (codes : List String) (db : Db) : Prop where
  present : ∃ acct ∈ db.accounts, acct.id = x
  apart : ∀ acct ∈ db.accounts, acct.id = x → acct.code ∉ codes

/-- Accounts other than this one are added. -/
def AddsOthers (x : Uuid) (db db' : Db) : Prop :=
  ∃ accounts, db' = db.withAccounts accounts ∧ ∀ acct ∈ accounts, acct.id ≠ x

section Counter
variable {x : Uuid} {codes : List String} {db db' : Db} {env : Env}
  {tenant chosen : Option Uuid} {code : String}

theorem AddsOthers.refl : AddsOthers x db db := ⟨[], (withAccounts_nil db).symm, by simp⟩

theorem Db.Apart.adds (hx : db.Apart x codes) (h : AddsOthers x db db') : db'.Apart x codes := by
  obtain ⟨accounts, rfl, hne⟩ := h
  constructor
  · obtain ⟨acct, hacct, hid⟩ := hx.present
    exact ⟨acct, List.mem_append_left _ hacct, hid⟩
  · intro acct hacct hid
    rcases List.mem_append.mp hacct with hacct | hacct
    · exact hx.apart acct hacct hid
    · exact absurd hid (hne acct hacct)

theorem resolveSystemAccount_mem {found : Option Account}
    (h : (resolveSystemAccount code tenant).run db = .ok (found, db')) :
    db' = db ∧ ∀ acct ∈ found, acct ∈ db.accounts ∧ acct.code = code := by
  unfold resolveSystemAccount at h
  rw [Tx.run_read_bind] at h
  split at h
  · rename_i own hown
    cases h
    refine ⟨rfl, fun acct hacct => ?_⟩
    obtain rfl := Option.some.inj hacct
    obtain ⟨u, -, hown⟩ := Option.bind_eq_some_iff.mp hown
    obtain ⟨hmem, hp⟩ := oldestAccount_spec hown
    simp only [decide_eq_true_eq] at hp
    exact ⟨hmem, hp.1⟩
  · cases h
    refine ⟨rfl, fun acct hacct => ?_⟩
    obtain ⟨hmem, hp⟩ := oldestAccount_spec hacct
    simp only [decide_eq_true_eq] at hp
    exact ⟨hmem, hp.1⟩

/-- A counter-leg is not on the account, and providing one leaves the account alone. -/
structure Elsewhere (x : Uuid) (db db' : Db) (found : Option Account) : Prop where
  other : ∀ acct ∈ found, acct.id ≠ x
  adds : AddsOthers x db db'
  mem : ∀ acct ∈ found, acct ∈ db'.accounts

/-- An account that is found under one of the codes. -/
theorem elsewhere_of_mem {found : Option Account} (hx : db.Apart x codes) (hcode : code ∈ codes)
    (hmem : ∀ acct ∈ found, acct ∈ db.accounts ∧ acct.code = code) : Elsewhere x db db found := by
  refine ⟨fun acct hacct hid => ?_, .refl, fun acct hacct => (hmem acct hacct).1⟩
  obtain ⟨hmem, hown⟩ := hmem acct hacct
  exact hx.apart acct hmem hid (hown ▸ hcode)

/-- The account was there, or is added under a new id. -/
theorem ensureSystemAccount_ok {name : String} {type : AccountType} {found : Option Account}
    (h : (ensureSystemAccount env code name type tenant).run db = .ok (found, db')) :
    (db' = db ∧ ∀ acct ∈ found, acct ∈ db.accounts ∧ acct.code = code) ∨
      ∃ acct, found = some acct ∧ acct.code = code ∧ acct.type = type ∧
        (∀ other ∈ db.accounts, other.id ≠ acct.id) ∧ db' = db.withAccounts [acct] := by
  obtain ⟨own, _, hown, h⟩ := Tx.run_bind_ok.mp h
  obtain ⟨hsame, hmem⟩ := resolveSystemAccount_mem hown
  rw [hsame] at h
  cases own with
  | some acct =>
    cases h
    exact .inl ⟨rfl, hmem⟩
  | none =>
    obtain ⟨base, h⟩ := readOnly_findBaseAssetId.run_bind_ok h
    obtain ⟨created, db₁, hins, h⟩ := Tx.run_bind_ok.mp h
    unfold insertAccountOnConflictDoNothing at hins
    rw [Tx.run_stmt] at hins
    by_cases htaken : db.CodeTaken tenant code
    · simp only [htaken, true_or, if_true, applyAll_nil, Tx.run_done] at hins
      cases hins
      exact .inl (resolveSystemAccount_mem h)
    · by_cases hid : ∃ b ∈ db.accounts, b.id = env.accountId
      · simp only [htaken, hid, or_true, if_true, if_false] at hins
        cases hins
      · simp only [htaken, hid, or_false, if_false] at hins
        cases hins
        cases h
        exact .inr ⟨_, rfl, rfl, rfl, fun other hother hsame => hid ⟨other, hother, hsame⟩, rfl⟩

theorem ensureSystemAccount_elsewhere {name : String} {type : AccountType} {found : Option Account}
    (hx : db.Apart x codes) (hcode : code ∈ codes)
    (h : (ensureSystemAccount env code name type tenant).run db = .ok (found, db')) :
    Elsewhere x db db' found := by
  rcases ensureSystemAccount_ok h with ⟨rfl, hmem⟩ | ⟨acct, rfl, -, -, hfresh, rfl⟩
  · exact elsewhere_of_mem hx hcode hmem
  · obtain ⟨present, hpresent, hid⟩ := hx.present
    have hne : acct.id ≠ x := fun hsame => hfresh present hpresent (hid.trans hsame.symm)
    refine ⟨?_, ⟨[acct], rfl, ?_⟩, ?_⟩
    · rintro _ ⟨⟩
      exact hne
    · intro other hother
      rw [List.mem_singleton.mp hother]
      exact hne
    · rintro _ ⟨⟩
      exact List.mem_append_right _ (List.mem_singleton_self _)

theorem ensureRealizedPnlAccount_elsewhere {found : Option Account} (hx : db.Apart x codes)
    (hcode : REALIZED_PNL_CODE ∈ codes)
    (h : (ensureRealizedPnlAccount env tenant).run db = .ok (found, db')) :
    Elsewhere x db db' found := by
  obtain ⟨own, _, hown, h⟩ := Tx.run_bind_ok.mp h
  obtain ⟨hsame, hmem⟩ := resolveSystemAccount_mem hown
  rw [hsame] at h
  cases own with
  | some acct =>
    cases h
    exact elsewhere_of_mem hx hcode hmem
  | none => exact ensureSystemAccount_elsewhere hx hcode h

theorem chosenOrEnsured_elsewhere {ensure : Sql (Option Account)} {found : Option Account}
    (hchosen : chosen ≠ some x)
    (hensure : ∀ found db', ensure.run db = .ok (found, db') → Elsewhere x db db' found)
    (h : (chosenOrEnsured chosen tenant ensure).run db = .ok (found, db')) :
    Elsewhere x db db' found := by
  cases chosen with
  | none => exact hensure _ _ h
  | some i =>
    unfold chosenOrEnsured resolveSystemAccountById at h
    dsimp only at h
    rw [Tx.run_read_bind] at h
    split at h
    · rename_i acct hfound
      cases h
      refine ⟨?_, .refl, ?_⟩
      · rintro _ ⟨⟩ rfl
        have hid := List.find?_some hfound
        simp only [decide_eq_true_eq] at hid
        exact hchosen (by rw [hid.1])
      · rintro _ ⟨⟩
        exact List.mem_of_find?_eq_some hfound
    · exact hensure _ _ h

theorem assertSystemAccount_ok {found : Option Account} {label : String} {acct : Account}
    (h : (assertSystemAccount found code label).run db = .ok (acct, db')) :
    found = some acct ∧ db' = db := by
  cases found <;> cases h
  exact ⟨rfl, rfl⟩

end Counter

/-- Accounts are no part of the books. -/
theorem LedgerInv.adds {x : Uuid} {db db' : Db} (hi : LedgerInv db) (h : AddsOthers x db db') :
    LedgerInv db' := by
  obtain ⟨accounts, rfl, -⟩ := h
  exact hi.step (.provision accounts)

end Pwos
