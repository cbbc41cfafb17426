import Pwos.BankImport.Clauses
import Pwos.Domain.Recurrence

/-!
# A message with clauses behind it

The candidates, units and directions of a message followed by balance and card clauses.
-/

namespace Pwos

namespace BankMessage

/-! ## Reading up to the clauses -/

/-- The text is not the continuation of a label, a number or a unit. -/
structure Opens (B : Text) : Prop where
  head : ∀ c ∈ B.head?, isMark c = false
  words : ∀ w ∈ ["به".toList, "مبلغ".toList, MoneyUnit.rial.text, MoneyUnit.toman.text], ¬w <+: B

/-- What is left of a text, and what is left of it with a space and `B` behind it: where nothing is
left, the space may be gone. -/
inductive Behind (B : Text) : Text → Text → Prop where
  | within (r : Text) : Behind B r (r ++ ' ' :: B)
  | past : Behind B [] B

section Reading
variable {B r r' w : Text} {n : Nat} {before v : Text}

theorem Behind.skipBlanks (hB : Opens B) (h : Behind B r r') :
    Behind B (skipBlanks r) (skipBlanks r') := by
  have hstay : BankMessage.skipBlanks B = B := by
    cases B with
    | nil => rfl
    | cons c B =>
      have hc := hB.head c rfl
      simp_all [BankMessage.skipBlanks, isMark]
  cases h with
  | past => rw [hstay]; exact .past
  | within =>
    unfold BankMessage.skipBlanks at hstay ⊢
    rw [List.dropWhile_append]
    split
    · rename_i hempty
      rw [List.dropWhile_cons_of_pos (by decide), hstay, List.isEmpty_iff.mp hempty]
      exact .past
    · exact .within _

theorem stripWord_within (hw : IsWord w) (r B : Text) :
    stripWord w (r ++ ' ' :: B) = (stripWord w r).map (· ++ ' ' :: B) := by
  have hiff := prefix_append_cons_iff (s := r) (t := B) (hw.not_mem (c := ' ') (by decide))
  unfold stripWord
  by_cases h : w <+: r
  · rw [if_pos h, if_pos (hiff.mpr h), List.drop_append_of_le_length h.length_le]
    rfl
  · rw [if_neg h, if_neg fun hlong => h (hiff.mp hlong)]
    rfl

theorem Behind.stripWord (hw : IsWord w) (hB : ¬w <+: B) (h : Behind B r r') :
    Option.Rel (Behind B) (stripWord w r) (stripWord w r') := by
  cases h with
  | past =>
    have hnil : ¬w <+: [] := by simpa using hw.ne_nil
    rw [BankMessage.stripWord, BankMessage.stripWord, if_neg hnil, if_neg hB]
    exact .none
  | within =>
    rw [stripWord_within hw]
    cases BankMessage.stripWord w r with
    | none => exact .none
    | some t => exact .some (.within t)

theorem Behind.skipByAmount (hB : Opens B) (h : Behind B r r') :
    Behind B (skipByAmount r) (skipByAmount r') := by
  have hby := h.stripWord (w := "به".toList) ⟨by decide, by decide⟩ (hB.words _ (by simp))
  unfold BankMessage.skipByAmount
  generalize BankMessage.stripWord "به".toList r = x at hby
  generalize BankMessage.stripWord "به".toList r' = y at hby
  cases hby with
  | none => exact h
  | some hnext =>
    have hamount := (hnext.skipBlanks hB).stripWord (w := "مبلغ".toList)
      ⟨by decide, by decide⟩ (hB.words _ (by simp))
    dsimp only
    generalize BankMessage.stripWord "مبلغ".toList (BankMessage.skipBlanks _) = x at hamount
    generalize BankMessage.stripWord "مبلغ".toList (BankMessage.skipBlanks _) = y at hamount
    cases hamount with
    | none => exact h
    | some hrest => exact hrest.skipBlanks hB

theorem Behind.skipColon (hB : Opens B) (h : Behind B r r') :
    Behind B (skipColon r) (skipColon r') := by
  cases h with
  | past =>
    have hstay : BankMessage.skipColon B = B := by
      cases B with
      | nil => rfl
      | cons c B =>
        have hc := hB.head c rfl
        have hcolon : ¬(c = ':' ∨ c = '：' ∨ c = '-') := by
          rintro (rfl | rfl | rfl) <;> revert hc <;> decide
        simp only [BankMessage.skipColon, if_neg hcolon]
    rw [hstay]
    exact .past
  | within =>
    cases r with
    | nil => exact .within []
    | cons c r =>
      simp only [BankMessage.skipColon, List.cons_append]
      split
      · exact .within r
      · exact .within (c :: r)

theorem Behind.drop (h : Behind B r r') (hn : n ≤ r.length) : Behind B (r.drop n) (r'.drop n) := by
  cases h with
  | past =>
    obtain rfl : n = 0 := by simpa using hn
    exact .past
  | within =>
    rw [List.drop_append_of_le_length hn]
    exact .within _

theorem fractionAt_length_le (s : Text) : (fractionAt s).length ≤ s.length := by
  cases s with
  | nil => simp [fractionAt]
  | cons c r =>
    simp only [fractionAt]
    split
    · have := ((r.take 2).takeWhile_sublist Char.isDigit).length_le
      simp at this ⊢
      omega
    · simp

theorem numberAt_length_le {number : Text} (h : numberAt r = some number) :
    number.length ≤ r.length := by
  unfold numberAt at h
  split at h
  · cases h
    have hrest := fractionAt_length_le (r.dropWhile isNumberChar)
    have hwhole := congrArg List.length (r.takeWhile_append_dropWhile (p := isNumberChar))
    rw [List.length_append] at hwhole ⊢
    omega
  · cases h

theorem fractionAt_append (s B : Text) : fractionAt (s ++ ' ' :: B) = fractionAt s := by
  have hspace : ' '.isDigit = false := by decide
  rcases s with _ | ⟨c, _ | ⟨d, _ | ⟨e, s⟩⟩⟩
  · simp [fractionAt]
  · simp [fractionAt, hspace]
  · by_cases hd : d.isDigit = true <;> simp [fractionAt, hspace, hd]
  · rfl

theorem takeWhile_append_cons {p : Char → Bool} {c : Char} (hc : p c = false) :
    (r ++ c :: B).takeWhile p = r.takeWhile p := by
  induction r with
  | nil => simp [hc]
  | cons d r ih => simp [List.takeWhile_cons, ih]

theorem dropWhile_append_cons {p : Char → Bool} {c : Char} (hc : p c = false) :
    (r ++ c :: B).dropWhile p = r.dropWhile p ++ c :: B := by
  induction r with
  | nil => simp [hc]
  | cons d r ih =>
    rw [List.cons_append, List.dropWhile_cons, List.dropWhile_cons, ih]
    split <;> rfl

theorem Behind.numberAt (hB : Opens B) (h : Behind B r r') : numberAt r' = numberAt r := by
  cases h with
  | past =>
    cases B with
    | nil => rfl
    | cons c B =>
      have hc := hB.head c rfl
      simp_all [BankMessage.numberAt, isMark]
  | within =>
    cases r with
    | nil => simp [BankMessage.numberAt]
    | cons c r =>
      have hspace : isNumberChar ' ' = false := by decide
      rw [BankMessage.numberAt, BankMessage.numberAt, takeWhile_append_cons hspace,
        dropWhile_append_cons hspace, fractionAt_append]
      rfl

theorem Behind.unitAt (hB : Opens B) (h : Behind B r r') :
    Option.Rel (fun x y => x.1 = y.1 ∧ Behind B x.2 y.2) (unitAt r) (unitAt r') := by
  have hrial := h.stripWord (w := "ریال".toList) ⟨by decide, by decide⟩
    (hB.words MoneyUnit.rial.text (by simp))
  have htoman := h.stripWord (w := "تومان".toList) ⟨by decide, by decide⟩
    (hB.words MoneyUnit.toman.text (by simp))
  unfold BankMessage.unitAt
  generalize BankMessage.stripWord "ریال".toList r = x at hrial
  generalize BankMessage.stripWord "ریال".toList r' = y at hrial
  cases hrial with
  | some hrest => exact .some ⟨rfl, hrest⟩
  | none =>
    dsimp only
    generalize BankMessage.stripWord "تومان".toList r = x at htoman
    generalize BankMessage.stripWord "تومان".toList r' = y at htoman
    cases htoman with
    | some hrest => exact .some ⟨rfl, hrest⟩
    | none => exact .none

theorem findSome?_rel {α β : Type} {R : β → β → Prop} {f g : α → Option β} {l : List α}
    (h : ∀ a ∈ l, Option.Rel R (f a) (g a)) : Option.Rel R (l.findSome? f) (l.findSome? g) := by
  induction l with
  | nil => exact .none
  | cons a l ih =>
    have ha := h a List.mem_cons_self
    rw [List.findSome?_cons, List.findSome?_cons]
    generalize f a = x at ha
    generalize g a = y at ha
    cases ha with
    | some hxy => exact .some hxy
    | none => exact ih fun b hb => h b (List.mem_cons_of_mem _ hb)

theorem labelAt_rel (before v B : Text) :
    Option.Rel (Behind B) (labelAt before v) (labelAt before (v ++ ' ' :: B)) := by
  apply findSome?_rel
  intro w hw
  split
  · exact .none
  · rw [stripWord_within (isWord_of_label hw)]
    cases stripWord w v with
    | none => exact .none
    | some r => exact .some (.within r)

theorem amountAt_rel (hB : Opens B) (before v : Text) :
    Option.Rel (fun x y => x.1 = y.1 ∧ Behind B x.2 y.2) (amountAt before v)
      (amountAt before (v ++ ' ' :: B)) := by
  have hlabel := labelAt_rel before v B
  unfold amountAt
  generalize labelAt before v = x at hlabel
  generalize labelAt before (v ++ ' ' :: B) = y at hlabel
  cases hlabel with
  | none => exact .none
  | @some r r' hrest =>
    have hread := (((hrest.skipBlanks hB).skipByAmount hB).skipColon hB).skipBlanks hB
    simp only [Option.bind_eq_bind, Option.bind_some]
    generalize skipBlanks (skipColon (skipByAmount (skipBlanks r))) = left at hread ⊢
    generalize skipBlanks (skipColon (skipByAmount (skipBlanks r'))) = left' at hread ⊢
    rw [hread.numberAt hB]
    cases hnumber : numberAt left with
    | none => exact .none
    | some number =>
      have hbehind := (hread.drop (numberAt_length_le hnumber)).skipBlanks hB
      have hunit := hbehind.unitAt hB
      simp only [Option.bind_some]
      generalize unitAt (skipBlanks (left.drop number.length)) = x at hunit ⊢
      generalize unitAt (skipBlanks (left'.drop number.length)) = y at hunit ⊢
      cases hunit with
      | none => exact .some ⟨rfl, hbehind⟩
      | some h => exact .some ⟨by rw [h.1], h.2⟩

theorem Behind.sameMatch {rest rest' : Text} (h : Behind B rest rest') (v : Text) (c : Candidate) :
    SameMatch v.length (some (c, v.length - rest.length))
      (some (c, (v ++ ' ' :: B).length - rest'.length)) := by
  cases h with
  | within =>
    have hlen : (v ++ ' ' :: B).length - (rest ++ ' ' :: B).length = v.length - rest.length := by
      simp only [List.length_append, List.length_cons]
      omega
    rw [hlen]
    exact .inside _ (Nat.sub_le _ _)
  | past =>
    have hlen : (v ++ ' ' :: B).length - B.length = v.length + 1 := by
      simp only [List.length_append, List.length_cons]
      omega
    rw [hlen]
    exact .beyond _

/-- A label, its number and its unit are read as in the message alone. -/
theorem amountPattern_same (hB : Opens B) (before v : Text) :
    SameMatch v.length (amountPattern before v) (amountPattern before (v ++ ' ' :: B)) := by
  have hrel := amountAt_rel hB before v
  unfold amountPattern
  generalize amountAt before v = x at hrel
  generalize amountAt before (v ++ ' ' :: B) = y at hrel
  cases hrel with
  | none => exact .none
  | @some found found' h =>
    obtain ⟨candidate, rest⟩ := found
    obtain ⟨candidate', rest'⟩ := found'
    obtain ⟨hc, hrest⟩ := h
    obtain rfl : candidate = candidate' := hc
    exact hrest.sameMatch v candidate

end Reading

/-! ## The amount -/

section Amount
variable {B M : Text} {g g' : Option MoneyUnit} {c : Candidate}

theorem Clauses.starts (b : Clauses) : ∃ w ∈ [BalanceWord.mandeh.text, BalanceWord.mojudi.text,
    cardWord], ∃ t, b.text = w ++ t := by
  obtain ⟨first, rest, closing, hmarks⟩ := b
  unfold Clauses.text
  cases first with
  | card number => exact ⟨cardWord, by simp, by simp [Clause.text]⟩
  | balance word qualifier number unit =>
    exact ⟨word.text, by cases word <;> simp, by simp [Clause.text]⟩

theorem Clauses.text_ne_nil (b : Clauses) : b.text ≠ [] := by
  obtain ⟨w, hw, t, ht⟩ := b.starts
  intro hnil
  rw [ht, List.append_eq_nil_iff] at hnil
  exact absurd (hnil.1 ▸ hw) (by decide)

theorem Clauses.opens (b : Clauses) : Opens b.text := by
  obtain ⟨w, hw, t, ht⟩ := b.starts
  rw [ht]
  constructor
  · have hhead : ([BalanceWord.mandeh.text, BalanceWord.mojudi.text, cardWord].all fun w =>
        !w.isEmpty && w.all (!isMark ·)) = true := by decide
    have hword := List.all_eq_true.mp hhead w hw
    cases w with
    | nil => simp at hword
    | cons d w =>
      rintro c hc
      cases hc
      simp_all
  · have hapart : ([BalanceWord.mandeh.text, BalanceWord.mojudi.text, cardWord].all fun w =>
        ["به".toList, "مبلغ".toList, MoneyUnit.rial.text, MoneyUnit.toman.text].all fun l =>
          !decide (l <+: w) && !decide (w <+: l)) = true := by decide
    intro l hl hprefix
    have hboth := List.all_eq_true.mp (List.all_eq_true.mp hapart w hw) l hl
    simp only [Bool.and_eq_true, Bool.not_eq_true', decide_eq_false_iff_not] at hboth
    exact (List.prefix_or_prefix_of_prefix hprefix (List.prefix_append w t)).elim hboth.1 hboth.2

theorem Clauses.amountCandidates_append (b : Clauses) (M : Text) :
    amountCandidates (M ++ ' ' :: b.text) = amountCandidates M := by
  have hbreak (before : Text) : amountPattern before (' ' :: b.text) = none := by
    apply amountPattern_none
    intro l hl hprefix
    exact absurd hprefix (not_prefix_cons (isWord_of_label hl) (by decide))
  rw [amountCandidates, matchAll_append_cons hbreak
    (fun before v _ => amountPattern_same b.opens before v) (Nat.zero_le _),
    b.amountCandidates_eq_nil, List.append_nil]
  rfl

theorem unitsIn_append (s t : Text) : unitsIn (s ++ ' ' :: t) = unitsIn s ++ unitsIn t := by
  have hword (unit : MoneyUnit) : IsWord unit.text := by
    cases unit <;> exact ⟨by decide, by decide⟩
  have hiff (unit : MoneyUnit) (s : Text) : unit.text <+: s ++ ' ' :: t ↔ unit.text <+: s :=
    prefix_append_cons_iff ((hword unit).not_mem (by decide))
  have hblank (unit : MoneyUnit) : ¬unit.text <+: ' ' :: t :=
    not_prefix_cons (hword unit) (by decide)
  induction s with
  | nil =>
    have hrial : ¬"ریال".toList <+: ' ' :: t := hblank .rial
    have htoman : ¬"تومان".toList <+: ' ' :: t := hblank .toman
    simp only [List.nil_append, unitsIn, if_neg hrial, if_neg htoman]
  | cons c s ih =>
    have hrial : "ریال".toList <+: c :: (s ++ ' ' :: t) ↔ "ریال".toList <+: c :: s :=
      hiff .rial (c :: s)
    have htoman : "تومان".toList <+: c :: (s ++ ' ' :: t) ↔ "تومان".toList <+: c :: s :=
      hiff .toman (c :: s)
    simp only [List.cons_append, unitsIn, hrial, htoman, ih]
    split
    · rfl
    · split <;> rfl

/-- More units may leave the message without one; they do not change it. -/
theorem messageUnit_append {u : MoneyUnit} (h : messageUnit M = some u) (B : Text) :
    messageUnit (M ++ ' ' :: B) = some u ∨ messageUnit (M ++ ' ' :: B) = none := by
  unfold messageUnit at *
  rw [unitsIn_append]
  cases hunits : unitsIn M with
  | nil => simp [hunits] at h
  | cons v us =>
    rw [hunits] at h
    simp only [List.cons_append] at h ⊢
    grind

theorem Candidate.money_append (B : Text) (h : c.money (messageUnit M) ≠ []) :
    c.money (messageUnit (M ++ ' ' :: B)) = c.money (messageUnit M) ∨
      c.money (messageUnit (M ++ ' ' :: B)) = [] := by
  unfold Candidate.money at *
  cases hown : c.unit with
  | some own => simp
  | none =>
    rw [hown, Option.none_or] at h
    rw [Option.none_or, Option.none_or]
    cases hunit : messageUnit M with
    | none => simp [hunit] at h
    | some u => rcases messageUnit_append hunit B with hmore | hmore <;> simp [hmore]

theorem money_of_amountToman (h : amountToman M ≠ []) (hc : c ∈ amountCandidates M) :
    c.money (messageUnit M) = amountToman M := by
  unfold amountToman at h ⊢
  dsimp only at h ⊢
  have hmem : c.money (messageUnit M) ∈ (amountCandidates M).map (·.money (messageUnit M)) :=
    List.mem_map_of_mem hc
  generalize (amountCandidates M).map (·.money (messageUnit M)) = amounts at h hmem ⊢
  split at h
  · rename_i amount hone
    split at h
    · rename_i hall
      have hne := List.all_eq_true.mp hall _ hmem
      have hin : c.money (messageUnit M) ∈ (amounts.filter (· ≠ [])).dedup := by
        rw [List.mem_dedup, List.mem_filter]
        exact ⟨hmem, hne⟩
      rw [hone] at hin
      rw [if_pos hall]
      exact List.mem_singleton.mp hin
    · exact absurd rfl h
  · exact absurd rfl h

theorem amountToman_of_money {A : Text} (h : ∀ c ∈ amountCandidates M,
    c.money (messageUnit M) = A ∨ c.money (messageUnit M) = []) :
    amountToman M = A ∨ amountToman M = [] := by
  unfold amountToman
  dsimp only
  split
  · rename_i amount hone
    have hin : amount ∈ (((amountCandidates M).map (·.money (messageUnit M))).filter (· ≠ [])) := by
      rw [← List.mem_dedup, hone]
      exact List.mem_singleton_self amount
    obtain ⟨hmem, hne⟩ := List.mem_filter.mp hin
    obtain ⟨c, hc, rfl⟩ := List.mem_map.mp hmem
    have hamount := (h c hc).resolve_right (by simpa using hne)
    split
    · exact .inl hamount
    · exact .inr rfl
  · exact .inr rfl

/-- The amount stays, or is lost. -/
theorem Clauses.amountToman_append (b : Clauses) (h : amountToman M ≠ []) :
    amountToman (M ++ ' ' :: b.text) = amountToman M ∨ amountToman (M ++ ' ' :: b.text) = [] := by
  apply amountToman_of_money
  rw [b.amountCandidates_append]
  intro c hc
  have hmoney := money_of_amountToman h hc
  have hstay := Candidate.money_append b.text (M := M) (c := c)
  rw [hmoney] at hstay
  exact hstay h

end Amount

/-! ## The draft -/

section Draft
variable {cal : JalaliCalendar} {m raw : Text} {b : Clauses} {draft : BankDraft}

theorem normalizeBankText_append (hm : normalizeBankText m ≠ [])
    (hraw : normalizeBankText raw ≠ []) :
    normalizeBankText (m ++ '\n' :: raw) = normalizeBankText m ++ ' ' :: normalizeBankText raw := by
  have hbreak : isBlank (normalChar '\n') = true := by decide
  unfold normalizeBankText at *
  rw [List.map_append, List.map_cons]
  exact trim_squeeze_append_cons hbreak hm hraw

/-- The direction of a message is the same with clauses behind it unless one of them says
`قابل برداشت` and the message itself names no withdrawal. -/
theorem Clauses.directionOf_append (b : Clauses) (M : Text) :
    directionOf (M ++ ' ' :: b.text) = directionOf M ↔
      b.all.any Clause.saysAvailable = false ∨ names withdrawalWords M = true := by
  have hspace {words : List Text} (h : ∀ l ∈ words, IsWord l) : ∀ l ∈ words, ' ' ∉ l :=
    fun l hl => (h l hl).not_mem (by decide)
  obtain ⟨hwithdrawal, hdeposit⟩ := b.names_directions
  unfold directionOf
  rw [names_append_cons (hspace fun l hl => isWord_of_direction (List.mem_append_left _ hl)),
    names_append_cons (hspace fun l hl => isWord_of_direction (List.mem_append_right _ hl)),
    hwithdrawal, hdeposit, Bool.or_false]
  cases names withdrawalWords M <;> cases names depositWords M <;>
    cases b.all.any Clause.saysAvailable <;> decide

theorem parseBankMessage_eq_ok (h : parseBankMessage cal m = .ok draft) :
    draft.amountToman = amountToman (normalizeBankText m) ∧
      draft.direction = directionOf (normalizeBankText m) := by
  unfold parseBankMessage at h
  split at h
  · cases h
  · cases h
    exact ⟨rfl, rfl⟩

theorem parseBankMessage_ok (cal : JalaliCalendar) (hlen : lengthOf m ≤ 8000) :
    ∃ draft, parseBankMessage cal m = .ok draft := by
  unfold parseBankMessage
  rw [if_neg (by omega)]
  exact ⟨_, rfl⟩

/-- What follows a message keeps the amount or loses it, and keeps the direction. -/
def Keeps (cal : JalaliCalendar) (draft : BankDraft) (source : Text) : Prop :=
  ∃ draft', parseBankMessage cal source = .ok draft' ∧
    (draft'.amountToman = draft.amountToman ∨ draft'.amountToman = []) ∧
    draft'.direction = draft.direction

/-- Balance and card clauses behind a message never become its amount; they keep its direction
exactly if none of them says `قابل برداشت` or a word of a withdrawal is in the message anyway. -/
theorem clauses_keep_message_iff (hm : parseBankMessage cal m = .ok draft)
    (hamount : draft.amountToman ≠ []) (hraw : normalizeBankText raw = b.text)
    (hlen : lengthOf (m ++ '\n' :: raw) ≤ 8000) :
    Keeps cal draft (m ++ '\n' :: raw) ↔
      (∀ c ∈ b.all, c.saysAvailable = false) ∨
        ∃ w ∈ withdrawalWords, w <:+: normalizeBankText m := by
  obtain ⟨draft', hdraft'⟩ := parseBankMessage_ok cal hlen
  obtain ⟨hA, hd⟩ := parseBankMessage_eq_ok hm
  obtain ⟨hA', hd'⟩ := parseBankMessage_eq_ok hdraft'
  rw [hA] at hamount
  have hne : normalizeBankText m ≠ [] := by
    intro hnil
    rw [hnil] at hamount
    exact hamount (by decide)
  rw [normalizeBankText_append hne (hraw ▸ b.text_ne_nil), hraw] at hA' hd'
  have hkeep : Keeps cal draft (m ++ '\n' :: raw) ↔
      directionOf (normalizeBankText m ++ ' ' :: b.text) = directionOf (normalizeBankText m) := by
    rw [← hd, ← hd']
    constructor
    · rintro ⟨_, hsome, -, hdirection⟩
      rw [hdraft'] at hsome
      cases hsome
      exact hdirection
    · intro hdirection
      refine ⟨draft', hdraft', ?_, hdirection⟩
      rw [hA, hA']
      exact b.amountToman_append hamount
  rw [hkeep, b.directionOf_append, names_iff, List.any_eq_false]
  simp only [Bool.not_eq_true]

theorem withdrawal_keeps_balance : ∃ draft,
    parseBankMessage recentYears "برداشت: ۲٬۵۰۰٬۰۰۰ ریال".toList = .ok draft ∧
    Keeps recentYears draft
      ("برداشت: ۲٬۵۰۰٬۰۰۰ ریال".toList ++ '\n' ::
        "مانده قابل برداشت: ۹۰٬۰۰۰٬۰۰۰ ریال\nکارت ۶۰۳۷۹۹۱۲۳۴۵۶۷۸۹۰".toList) := by
  obtain ⟨draft, hdraft⟩ := parseBankMessage_ok (m := "برداشت: ۲٬۵۰۰٬۰۰۰ ریال".toList)
    recentYears (by decide)
  obtain ⟨hamount, -⟩ := parseBankMessage_eq_ok hdraft
  have hmarks : (" ".toList.all isMark) = true ∧ (": 90٬000٬000 ".toList.all isMark) = true ∧
      (" 6037991234567890".toList.all isMark) = true := by decide
  have hdigits : (": 90٬000٬000 ".toList.any Char.isDigit) = true ∧
      (" 6037991234567890".toList.any Char.isDigit) = true := by decide
  let balance : Clause := .balance .mandeh (some (⟨" ".toList, hmarks.1, by decide⟩, .available))
    ⟨⟨": 90٬000٬000 ".toList, hmarks.2.1, by decide⟩, hdigits.1⟩ (some .rial)
  let card : Clause := .card ⟨⟨" 6037991234567890".toList, hmarks.2.2, by decide⟩, hdigits.2⟩
  let both : Clauses := ⟨balance, [(⟨" ".toList, hmarks.1, by decide⟩, card)], [], rfl⟩
  refine ⟨draft, hdraft, (clauses_keep_message_iff (b := both) hdraft ?_ ?_ ?_).mpr (.inr ?_)⟩
  · rw [hamount]
    decide
  · simp only [both, balance, card, Clauses.text, Clause.text, qualifierText, unitText,
      List.flatMap_cons, List.flatMap_nil]
    decide
  · decide
  · exact ⟨withdrawalWord, by simp [withdrawalWords], by decide⟩

/-- A deposit with its available balance is no longer read as a deposit. -/
theorem available_balance_loses_direction : ¬∀ (cal : JalaliCalendar) (m raw : Text) (b : Clauses)
    (draft : BankDraft), parseBankMessage cal m = .ok draft → draft.amountToman ≠ [] →
    normalizeBankText raw = b.text → lengthOf (m ++ '\n' :: raw) ≤ 8000 →
    Keeps cal draft (m ++ '\n' :: raw) := by
  intro h
  obtain ⟨draft, hdraft⟩ := parseBankMessage_ok (m := "واریز مبلغ 500,000 ریال".toList)
    recentYears (by decide)
  obtain ⟨hamount, hdirection⟩ := parseBankMessage_eq_ok hdraft
  have hmarks : (" ".toList.all isMark) = true ∧ (" 12,000,000 ".toList.all isMark) = true := by
    decide
  have hdigits : (" 12,000,000 ".toList.any Char.isDigit) = true := by decide
  let balance : Clause := .balance .mandeh (some (⟨" ".toList, hmarks.1, by decide⟩, .available))
    ⟨⟨" 12,000,000 ".toList, hmarks.2, by decide⟩, hdigits⟩ (some .rial)
  obtain ⟨draft', hdraft', -, hsame⟩ := h recentYears "واریز مبلغ 500,000 ریال".toList
    "مانده قابل برداشت 12,000,000 ریال".toList ⟨balance, [], [], rfl⟩ draft hdraft
    (by rw [hamount]; decide)
    (by
      simp only [balance, Clauses.text, Clause.text, qualifierText, unitText, List.flatMap_nil]
      decide)
    (by decide)
  rw [(parseBankMessage_eq_ok hdraft').2, hdirection] at hsame
  exact absurd hsame (by decide)

end Draft

end BankMessage

end Pwos
