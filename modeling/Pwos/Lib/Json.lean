import Mathlib.Tactic

/-!
# JSON texts

The values `JSON.stringify` is given when every number is written as a string, and the text it
makes of them. The keys of an object stay in their order, so the text determines the value
(`Json.text_injective`).
-/

namespace Pwos

/-! ## Strings -/

def quoteMark : Char := Char.ofNat 34
def backslash : Char := Char.ofNat 92

/-- What follows the backslash of a control character. -/
def controlCode (n : Nat) : List Char :=
  match n with
  | 8 => ['b']
  | 9 => ['t']
  | 10 => ['n']
  | 12 => ['f']
  | 13 => ['r']
  | n => ['u', '0', '0', Nat.digitChar (n / 16), Nat.digitChar (n % 16)]

def escapeChar (c : Char) : List Char :=
  if c = quoteMark ∨ c = backslash then [backslash, c]
  else if c.toNat < 32 then backslash :: controlCode c.toNat
  else [c]

def quote (s : String) : List Char :=
  quoteMark :: (s.toList.flatMap escapeChar ++ [quoteMark])

theorem controlCode_prefix_free :
    ∀ m < 32, ∀ n < 32, controlCode m <+: controlCode n → m = n := by decide

theorem controlCode_head : ∀ n < 32, (controlCode n).head? ≠ some quoteMark ∧
    (controlCode n).head? ≠ some backslash := by decide

section Strings
variable {c d : Char} {r t : List Char}

/-- Two codes that begin the same text, when none begins another. -/
theorem eq_of_prefix_free {α β : Type} {f : α → List β} {a b : α} {r t : List β}
    (hab : f a <+: f b → a = b) (hba : f b <+: f a → a = b) (h : f a ++ r = f b ++ t) :
    a = b ∧ r = t := by
  have heq : a = b := by
    rcases List.prefix_or_prefix_of_prefix (List.prefix_append (f a) r)
      (h ▸ List.prefix_append (f b) t) with hp | hp
    · exact hab hp
    · exact hba hp
  subst heq
  exact ⟨rfl, List.append_cancel_left h⟩

theorem controlCode_append_inj {m n : Nat} (hm : m < 32) (hn : n < 32)
    (h : controlCode m ++ r = controlCode n ++ t) : m = n ∧ r = t :=
  eq_of_prefix_free (controlCode_prefix_free m hm n hn)
    (fun hp => (controlCode_prefix_free n hn m hm hp).symm) h

theorem controlCode_ne_nil (n : Nat) : controlCode n ≠ [] := by
  unfold controlCode
  split <;> simp

/-- A control code is no escaped mark. -/
theorem controlCode_ne_mark {n : Nat} (hn : n < 32) (hc : c = quoteMark ∨ c = backslash) :
    controlCode n ++ r ≠ c :: t := by
  intro h
  obtain ⟨e, code, he⟩ := List.exists_cons_of_ne_nil (controlCode_ne_nil n)
  rw [he, List.cons_append, List.cons.injEq] at h
  have hhead := controlCode_head n hn
  rw [he, List.head?_cons] at hhead
  rcases hc with rfl | rfl
  · exact hhead.1 (congrArg some h.1)
  · exact hhead.2 (congrArg some h.1)

theorem escapeChar_append_inj (h : escapeChar c ++ r = escapeChar d ++ t) : c = d ∧ r = t := by
  unfold escapeChar at h
  split at h
  · rename_i hc
    split at h
    · simpa using h
    · split at h
      · rename_i hd
        simp only [List.cons_append, List.nil_append, List.cons.injEq, true_and] at h
        exact absurd h.symm (controlCode_ne_mark hd hc)
      · rename_i hd _
        simp only [List.cons_append, List.nil_append, List.cons.injEq] at h
        exact absurd (.inr h.1.symm) hd
  · rename_i hc
    split at h
    · rename_i hcontrol
      split at h
      · rename_i hd
        simp only [List.cons_append, List.nil_append, List.cons.injEq, true_and] at h
        exact absurd h (controlCode_ne_mark hcontrol hd)
      · split at h
        · rename_i hdcontrol
          simp only [List.cons_append, List.cons.injEq, true_and] at h
          obtain ⟨hn, hr⟩ := controlCode_append_inj hcontrol hdcontrol h
          exact ⟨Char.toNat_inj.mp hn, hr⟩
        · rename_i hd _
          simp only [List.cons_append, List.nil_append, List.cons.injEq] at h
          exact absurd (.inr h.1.symm) hd
    · split at h
      · simp only [List.cons_append, List.nil_append, List.cons.injEq] at h
        exact absurd (.inr h.1) hc
      · split at h
        · simp only [List.cons_append, List.nil_append, List.cons.injEq] at h
          exact absurd (.inr h.1) hc
        · simpa using h

/-- No escaped character begins with the closing mark. -/
theorem escapeChar_ne_mark : escapeChar c ++ r ≠ quoteMark :: t := by
  intro h
  unfold escapeChar at h
  split at h
  · simp only [List.cons_append, List.cons.injEq] at h
    exact absurd h.1 (by decide)
  · rename_i hc
    split at h
    · simp only [List.cons_append, List.cons.injEq] at h
      exact absurd h.1 (by decide)
    · simp only [List.cons_append, List.cons.injEq] at h
      exact hc (.inl h.1)

theorem escaped_append_inj {s u : List Char}
    (h : s.flatMap escapeChar ++ quoteMark :: r = u.flatMap escapeChar ++ quoteMark :: t) :
    s = u ∧ r = t := by
  induction s generalizing u with
  | nil =>
    cases u with
    | nil => simpa using h
    | cons d u =>
      rw [List.flatMap_cons, List.append_assoc] at h
      exact absurd h.symm escapeChar_ne_mark
  | cons c s ih =>
    cases u with
    | nil =>
      rw [List.flatMap_cons, List.append_assoc] at h
      exact absurd h escapeChar_ne_mark
    | cons d u =>
      rw [List.flatMap_cons, List.flatMap_cons, List.append_assoc, List.append_assoc] at h
      obtain ⟨rfl, hrest⟩ := escapeChar_append_inj h
      obtain ⟨rfl, hr⟩ := ih hrest
      exact ⟨rfl, hr⟩

theorem quote_append_inj {s u : String} (h : quote s ++ r = quote u ++ t) : s = u ∧ r = t := by
  simp only [quote, List.cons_append, List.append_assoc, List.nil_append, List.cons.injEq,
    true_and] at h
  obtain ⟨hs, hr⟩ := escaped_append_inj h
  exact ⟨String.toList_inj.mp hs, hr⟩

end Strings

/-! ## Values -/

inductive Json where
  | null
  | str (s : String)
  | arr (items : List Json)
  | obj (fields : List (String × Json))

namespace Json

mutual

def text : Json → List Char
  | .null => ['n', 'u', 'l', 'l']
  | .str s => quote s
  | .arr items => '[' :: itemsText items
  | .obj fields => '{' :: fieldsText fields

def itemsText : List Json → List Char
  | [] => [']']
  | x :: xs => x.text ++ moreItems xs

def moreItems : List Json → List Char
  | [] => [']']
  | x :: xs => ',' :: (x.text ++ moreItems xs)

def fieldsText : List (String × Json) → List Char
  | [] => ['}']
  | x :: xs => fieldText x ++ moreFields xs

def moreFields : List (String × Json) → List Char
  | [] => ['}']
  | x :: xs => ',' :: (fieldText x ++ moreFields xs)

def fieldText : String × Json → List Char
  | (key, value) => quote key ++ ':' :: value.text

end

variable {a b : Json} {r t : List Char}

/-- A value begins with none of the characters that follow one. -/
theorem text_head (a : Json) : ∃ c rest, a.text = c :: rest ∧ c ≠ ']' := by
  cases a with
  | null => exact ⟨'n', _, rfl, by decide⟩
  | str s => exact ⟨quoteMark, _, rfl, by decide⟩
  | arr items => exact ⟨'[', _, rfl, by decide⟩
  | obj fields => exact ⟨'{', _, rfl, by decide⟩

theorem text_ne_close : a.text ++ r ≠ ']' :: t := by
  obtain ⟨c, rest, ha, hc⟩ := text_head a
  rw [ha]
  intro h
  exact hc (List.cons.inj h).1

theorem fieldText_ne_close {f : String × Json} : fieldText f ++ r ≠ '}' :: t := by
  obtain ⟨key, value⟩ := f
  intro h
  rw [fieldText, quote, List.append_assoc, List.cons_append] at h
  have hhead : quoteMark = '}' := (List.cons.inj h).1
  exact absurd hhead (by decide)

/-- Values of two kinds begin differently. -/
theorem text_append_inj_null (h : text .null ++ r = b.text ++ t) : .null = b ∧ r = t := by
  cases b with
  | null => simpa [text] using h
  | str s =>
    have hhead : 'n' = quoteMark := (List.cons.inj h).1
    exact absurd hhead (by decide)
  | arr items =>
    have hhead : 'n' = '[' := (List.cons.inj h).1
    exact absurd hhead (by decide)
  | obj fields =>
    have hhead : 'n' = '{' := (List.cons.inj h).1
    exact absurd hhead (by decide)

theorem text_append_inj_str {s : String} (h : text (.str s) ++ r = b.text ++ t) :
    .str s = b ∧ r = t := by
  cases b with
  | null =>
    have hhead : quoteMark = 'n' := (List.cons.inj h).1
    exact absurd hhead (by decide)
  | str u =>
    obtain ⟨rfl, hr⟩ := quote_append_inj h
    exact ⟨rfl, hr⟩
  | arr items =>
    have hhead : quoteMark = '[' := (List.cons.inj h).1
    exact absurd hhead (by decide)
  | obj fields =>
    have hhead : quoteMark = '{' := (List.cons.inj h).1
    exact absurd hhead (by decide)

mutual

theorem text_append_inj : ∀ {a b : Json} {r t : List Char}, a.text ++ r = b.text ++ t →
    a = b ∧ r = t
  | .null, _, _, _, h => text_append_inj_null h
  | .str _, _, _, _, h => text_append_inj_str h
  | .arr items, b, r, t, h => by
    cases b with
    | null => exact absurd (text_append_inj_null h.symm).1 nofun
    | str s => exact absurd (text_append_inj_str h.symm).1 nofun
    | obj fields =>
      have hhead : '[' = '{' := (List.cons.inj h).1
      exact absurd hhead (by decide)
    | arr others =>
      obtain ⟨rfl, hr⟩ := itemsText_append_inj (List.cons.inj h).2
      exact ⟨rfl, hr⟩
  | .obj fields, b, r, t, h => by
    cases b with
    | null => exact absurd (text_append_inj_null h.symm).1 nofun
    | str s => exact absurd (text_append_inj_str h.symm).1 nofun
    | arr items =>
      have hhead : '{' = '[' := (List.cons.inj h).1
      exact absurd hhead (by decide)
    | obj others =>
      obtain ⟨rfl, hr⟩ := fieldsText_append_inj (List.cons.inj h).2
      exact ⟨rfl, hr⟩

theorem itemsText_append_inj : ∀ {xs ys : List Json} {r t : List Char},
    itemsText xs ++ r = itemsText ys ++ t → xs = ys ∧ r = t
  | [], ys, r, t, h => by
    cases ys with
    | nil => exact ⟨rfl, (List.cons.inj h).2⟩
    | cons y ys =>
      rw [itemsText, itemsText, List.append_assoc] at h
      exact absurd h.symm text_ne_close
  | x :: xs, ys, r, t, h => by
    cases ys with
    | nil =>
      rw [itemsText, itemsText, List.append_assoc] at h
      exact absurd h text_ne_close
    | cons y ys =>
      rw [itemsText, itemsText, List.append_assoc, List.append_assoc] at h
      obtain ⟨rfl, hrest⟩ := text_append_inj h
      obtain ⟨rfl, hr⟩ := moreItems_append_inj hrest
      exact ⟨rfl, hr⟩

theorem moreItems_append_inj : ∀ {xs ys : List Json} {r t : List Char},
    moreItems xs ++ r = moreItems ys ++ t → xs = ys ∧ r = t
  | [], ys, r, t, h => by
    cases ys with
    | nil => exact ⟨rfl, (List.cons.inj h).2⟩
    | cons y ys =>
      have hhead : ']' = ',' := (List.cons.inj h).1
      exact absurd hhead (by decide)
  | x :: xs, ys, r, t, h => by
    cases ys with
    | nil =>
      have hhead : ',' = ']' := (List.cons.inj h).1
      exact absurd hhead (by decide)
    | cons y ys =>
      rw [moreItems, moreItems, List.cons_append, List.cons_append, List.cons.injEq,
        List.append_assoc, List.append_assoc] at h
      obtain ⟨rfl, hrest⟩ := text_append_inj h.2
      obtain ⟨rfl, hr⟩ := moreItems_append_inj hrest
      exact ⟨rfl, hr⟩

theorem fieldsText_append_inj : ∀ {xs ys : List (String × Json)} {r t : List Char},
    fieldsText xs ++ r = fieldsText ys ++ t → xs = ys ∧ r = t
  | [], ys, r, t, h => by
    cases ys with
    | nil => exact ⟨rfl, (List.cons.inj h).2⟩
    | cons y ys =>
      rw [fieldsText, fieldsText, List.append_assoc] at h
      exact absurd h.symm fieldText_ne_close
  | x :: xs, ys, r, t, h => by
    cases ys with
    | nil =>
      rw [fieldsText, fieldsText, List.append_assoc] at h
      exact absurd h fieldText_ne_close
    | cons y ys =>
      rw [fieldsText, fieldsText, List.append_assoc, List.append_assoc] at h
      obtain ⟨rfl, hrest⟩ := fieldText_append_inj h
      obtain ⟨rfl, hr⟩ := moreFields_append_inj hrest
      exact ⟨rfl, hr⟩

theorem moreFields_append_inj : ∀ {xs ys : List (String × Json)} {r t : List Char},
    moreFields xs ++ r = moreFields ys ++ t → xs = ys ∧ r = t
  | [], ys, r, t, h => by
    cases ys with
    | nil => exact ⟨rfl, (List.cons.inj h).2⟩
    | cons y ys =>
      have hhead : '}' = ',' := (List.cons.inj h).1
      exact absurd hhead (by decide)
  | x :: xs, ys, r, t, h => by
    cases ys with
    | nil =>
      have hhead : ',' = '}' := (List.cons.inj h).1
      exact absurd hhead (by decide)
    | cons y ys =>
      rw [moreFields, moreFields, List.cons_append, List.cons_append, List.cons.injEq,
        List.append_assoc, List.append_assoc] at h
      obtain ⟨rfl, hrest⟩ := fieldText_append_inj h.2
      obtain ⟨rfl, hr⟩ := moreFields_append_inj hrest
      exact ⟨rfl, hr⟩

theorem fieldText_append_inj : ∀ {f g : String × Json} {r t : List Char},
    fieldText f ++ r = fieldText g ++ t → f = g ∧ r = t
  | (key, value), (other, b), r, t, h => by
    rw [fieldText, fieldText, List.append_assoc, List.append_assoc] at h
    obtain ⟨rfl, hvalue⟩ := quote_append_inj h
    obtain ⟨rfl, hr⟩ := text_append_inj (List.cons.inj hvalue).2
    exact ⟨rfl, hr⟩

end

/-- The text determines the value. -/
theorem text_injective : Function.Injective text := by
  intro a b h
  exact (text_append_inj (congrArg (· ++ []) h)).1

end Json

end Pwos
