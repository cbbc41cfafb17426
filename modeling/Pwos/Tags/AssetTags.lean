import Pwos.Tags.Normalize

/-!
# The tags of vehicles and properties

`ensureVehicleTags` of `features/vehicles/service.ts` and `ensurePropertyTags` of
`features/properties/service.ts`: one pass over the user's assets gives each its tag, and keeps the
set of the tags that are taken. A name that is taken gets the asset's number, without another look
at the set.
-/

namespace Pwos

/-- A number as it is put into a text. -/
def digits (n : Nat) : Text := Nat.toDigits 10 n

/-- The user's number of an asset, an `integer` column. -/
abbrev UserSeq := Option (Fin (2 ^ 31))

/-- `seq ?? n`. -/
def UserSeq.orElse (seq : UserSeq) (n : Nat) : Nat := (seq.map Fin.val).getD n

/-- The second candidate: the name with the asset's number. -/
def numberedTag (u : Unicode) (base : Text) (seq : UserSeq) (taken : List Text) : Text :=
  (normalizeTag u (base ++ '_' :: digits (seq.orElse (taken.length + 1)))).getD
    (base ++ '_' :: digits (taken.length + 1))

structure Vehicle where
  id : Nat
  brand : Text
  model : Text
  seq : UserSeq
  tag : Option Text
  deriving DecidableEq, Repr

structure Property where
  id : Nat
  area : Option Text
  /-- The Persian name from the catalogue. -/
  areaFa : Option Text
  seq : UserSeq
  tag : Option Text
  deriving DecidableEq, Repr

def VEHICLE_WORD : Text := ['خ', 'و', 'د', 'ر', 'و', '_']
def PROPERTY_WORD : Text := ['م', 'ل', 'ک', '_']

def vehicleBase (u : Unicode) (brand model : Text) (seq : UserSeq) : Text :=
  (normalizeTag u (brand ++ ' ' :: model)).getD (VEHICLE_WORD ++ digits (seq.orElse 1))

def vehicleTag (u : Unicode) (brand model : Text) (seq : UserSeq) (taken : List Text) : Text :=
  let base := vehicleBase u brand model seq
  if base ∉ taken then base else numberedTag u base seq taken

def propertyBase (u : Unicode) (area : Option Text) (seq : UserSeq) (taken : List Text) : Text :=
  (normalizeTag u (area.getD [])).getD (PROPERTY_WORD ++ digits (seq.orElse (taken.length + 1)))

def propertyTag (u : Unicode) (area : Option Text) (seq : UserSeq) (taken : List Text) : Text :=
  let base := propertyBase u area seq taken
  if base ∉ taken then base else numberedTag u base seq taken

/-- A tag with no Persian letter. -/
def isLatinTag (t : Text) : Bool := !t.any fun c => 0x600 ≤ c.toNat && c.toNat ≤ 0x6ff

/-- A text that is there: JavaScript takes the empty one for none. -/
def given (t : Option Text) : Option Text := t.filter (!·.isEmpty)

/-! ## The pass -/

/-- One pass: `next` is the new tag of a row, with the tags taken when the pass comes to it. -/
structure TagPass (α : Type) where
  tag : α → Option Text
  setTag : α → Text → α
  next : α → List Text → Option Text

namespace TagPass
variable {α : Type} (P : TagPass α)

/-- The row after the pass has come to it. -/
def row (taken : List Text) (c : α) : α :=
  match P.next c taken with
  | some n => P.setTag c n
  | none => c

/-- `taken.delete` of the old tag and `taken.add` of the new one. -/
def take (taken : List Text) (c : α) : List Text :=
  match P.next c taken with
  | some n => ((given (P.tag c)).elim taken taken.erase).insert n
  | none => taken

def run : List Text → List α → List α
  | _, [] => []
  | taken, c :: cs => P.row taken c :: run (P.take taken c) cs

/-- The tags that are there. -/
def tags (rows : List α) : List Text := rows.filterMap fun c => given (P.tag c)

/-- `new Set` of the tags. -/
def taken (rows : List α) : List Text := (P.tags rows).dedup

def ensure (rows : List α) : List α := P.run (P.taken rows) rows

/-- The stored rows when the pass has come to row `k`. -/
def upTo (rows : List α) (k : Nat) : List α := (P.ensure rows).take k ++ rows.drop k

/-- The condition holds of every row, with the tags taken when the pass comes to it. -/
def Along (free : α → List Text → Prop) : List Text → List α → Prop
  | _, [] => True
  | taken, c :: cs => free c taken ∧ Along free (P.take taken c) cs

instance decidableAlong {free : α → List Text → Prop} [∀ c taken, Decidable (free c taken)] :
    ∀ taken rows, Decidable (P.Along free taken rows)
  | _, [] => isTrue trivial
  | taken, c :: cs =>
    have : Decidable (P.Along free (P.take taken c) cs) := decidableAlong (P.take taken c) cs
    inferInstanceAs (Decidable (free c taken ∧ P.Along free (P.take taken c) cs))

end TagPass

def vehicleTags (u : Unicode) : TagPass Vehicle where
  tag := Vehicle.tag
  setTag c t := { c with tag := some t }
  next c taken :=
    if (given c.tag).isSome then none else some (vehicleTag u c.brand c.model c.seq taken)

/-- An old Latin tag becomes Persian once. -/
def propertyTags (u : Unicode) : TagPass Property where
  tag := Property.tag
  setTag p t := { p with tag := some t }
  next p taken :=
    match given p.tag with
    | none => some (propertyTag u (p.areaFa.orElse fun _ => p.area) p.seq taken)
    | some t =>
      if isLatinTag t ∧ (given p.areaFa).isSome then
        let next := propertyTag u p.areaFa p.seq taken
        if next ≠ t ∧ ¬ isLatinTag next then some next else none
      else none

def ensureVehicleTags (u : Unicode) (cars : List Vehicle) : List Vehicle := (vehicleTags u).ensure cars

def ensurePropertyTags (u : Unicode) (list : List Property) : List Property :=
  (propertyTags u).ensure list

/-- A car without a tag whose name is taken: its name with its number is not. -/
def VehicleFree (u : Unicode) (c : Vehicle) (taken : List Text) : Prop :=
  given c.tag = none → vehicleBase u c.brand c.model c.seq ∈ taken →
    numberedTag u (vehicleBase u c.brand c.model c.seq) c.seq taken ∉ taken

instance decidableVehicleFree (u c taken) : Decidable (VehicleFree u c taken) :=
  inferInstanceAs (Decidable (_ → _ → _))

/-- The name with the number is not taken if the name is. -/
def AreaFree (u : Unicode) (area : Option Text) (seq : UserSeq) (taken : List Text) : Prop :=
  propertyBase u area seq taken ∈ taken →
    numberedTag u (propertyBase u area seq taken) seq taken ∉ taken

instance decidableAreaFree (u area seq taken) : Decidable (AreaFree u area seq taken) :=
  inferInstanceAs (Decidable (_ → _))

/-- The same of a property without a tag, and of one with a Latin tag that is to become Persian. -/
def PropertyFree (u : Unicode) (p : Property) (taken : List Text) : Prop :=
  match given p.tag with
  | none => AreaFree u (p.areaFa.orElse fun _ => p.area) p.seq taken
  | some t =>
    isLatinTag t → (given p.areaFa).isSome →
      let numbered := numberedTag u (propertyBase u p.areaFa p.seq taken) p.seq taken
      numbered = t ∨ isLatinTag numbered ∨ AreaFree u p.areaFa p.seq taken

instance decidablePropertyFree (u p taken) : Decidable (PropertyFree u p taken) :=
  match h : given p.tag with
  | none =>
    decidable_of_iff (AreaFree u (p.areaFa.orElse fun _ => p.area) p.seq taken)
      (by simp only [PropertyFree, h])
  | some t =>
    let numbered := numberedTag u (propertyBase u p.areaFa p.seq taken) p.seq taken
    decidable_of_iff (isLatinTag t → (given p.areaFa).isSome →
      numbered = t ∨ isLatinTag numbered ∨ AreaFree u p.areaFa p.seq taken)
      (by simp only [PropertyFree, h]; rfl)

/-! ## Which tags are taken -/

theorem given_some {t : Text} (h : t ≠ []) : given (some t) = some t := by
  simp [given, Option.filter, h]

namespace TagPass
variable {α : Type} {P : TagPass α} {taken : List Text} {c : α} {done rest rows : List α}
  {free : α → List Text → Prop}

/-- A new tag is a text, and not the old one. -/
structure Lawful (P : TagPass α) : Prop where
  tag_setTag : ∀ c n, P.tag (P.setTag c n) = some n
  next_ne_nil : ∀ {c taken n}, P.next c taken = some n → n ≠ []
  next_ne : ∀ {c taken n}, P.next c taken = some n → given (P.tag c) ≠ some n

theorem tags_append (rows more : List α) : P.tags (rows ++ more) = P.tags rows ++ P.tags more :=
  List.filterMap_append

theorem tags_cons (c : α) (rows : List α) :
    P.tags (c :: rows) = (given (P.tag c)).toList ++ P.tags rows := by
  cases h : given (P.tag c) <;> simp [tags, h]

/-- The rows before and after, and the set the pass keeps of their tags. -/
structure Holds (P : TagPass α) (done rest : List α) (taken : List Text) : Prop where
  nodup : (P.tags (done ++ rest)).Nodup
  taken_nodup : taken.Nodup
  mem_taken : ∀ t, t ∈ taken ↔ t ∈ P.tags (done ++ rest)

theorem holds_taken (h : (P.tags rows).Nodup) : P.Holds [] rows (P.taken rows) where
  nodup := h
  taken_nodup := List.nodup_dedup _
  mem_taken t := by simp [taken]

theorem row_nodup_iff (hP : P.Lawful) (h : P.Holds done (c :: rest) taken) :
    (P.tags (done ++ P.row taken c :: rest)).Nodup ↔ ∀ n ∈ P.next c taken, n ∉ taken := by
  have hnodup := h.nodup
  cases hnext : P.next c taken with
  | none => simpa [row, hnext] using hnodup
  | some n =>
    have hnew : given (P.tag (P.setTag c n)) = some n := by
      rw [hP.tag_setTag, given_some (hP.next_ne_nil hnext)]
    have hold := hP.next_ne hnext
    have hmem := h.mem_taken n
    simp only [tags_append, tags_cons] at hnodup hmem
    simp only [row, hnext, tags_append, tags_cons, hnew]
    cases hc : given (P.tag c) <;> grind

theorem row_holds (hP : P.Lawful) (h : P.Holds done (c :: rest) taken)
    (hrow : (P.tags (done ++ P.row taken c :: rest)).Nodup) :
    P.Holds (done ++ [P.row taken c]) rest (P.take taken c) := by
  have hnodup := h.nodup
  have hmem := h.mem_taken
  have hset := h.taken_nodup
  cases hnext : P.next c taken with
  | none =>
    simp only [row, take, hnext]
    exact ⟨by simpa using hnodup, hset, by simpa using hmem⟩
  | some n =>
    have hnew : given (P.tag (P.setTag c n)) = some n := by
      rw [hP.tag_setTag, given_some (hP.next_ne_nil hnext)]
    refine ⟨by simpa using hrow, ?_, fun t => ?_⟩
    · simp only [take, hnext]
      cases given (P.tag c) with
      | none => exact hset.insert
      | some old => exact (hset.erase old).insert
    · simp only [tags_append, tags_cons] at hnodup hmem
      simp only [row, take, hnext, List.append_assoc, List.singleton_append, tags_append,
        tags_cons, hnew]
      cases hc : given (P.tag c) with
      | none => grind
      | some old =>
        have := hset.mem_erase_iff (a := t) (b := old)
        grind

/-- The tags differ after every row exactly if no row gets a tag that is taken. -/
theorem run_nodup_iff (hP : P.Lawful)
    (hfree : ∀ c taken, free c taken ↔ ∀ n ∈ P.next c taken, n ∉ taken) :
    P.Holds done rows taken →
      ((∀ k, (P.tags (done ++ ((P.run taken rows).take k ++ rows.drop k))).Nodup) ↔
        P.Along free taken rows) := by
  induction rows generalizing done taken with
  | nil => exact fun h => by simpa [run, Along] using h.nodup
  | cons c rest ih =>
    intro h
    have hiff := row_nodup_iff hP h
    rw [← hfree c taken] at hiff
    constructor
    · intro hall
      have hrow : (P.tags (done ++ P.row taken c :: rest)).Nodup := by simpa [run] using hall 1
      refine ⟨hiff.mp hrow, (ih (row_holds hP h hrow)).mp fun k => ?_⟩
      simpa [run] using hall (k + 1)
    · rintro ⟨hc, hrest⟩ k
      cases k with
      | zero => simpa using h.nodup
      | succ k => simpa [run] using (ih (row_holds hP h (hiff.mpr hc))).mpr hrest k

theorem run_length (taken : List Text) (rows : List α) :
    (P.run taken rows).length = rows.length := by
  induction rows generalizing taken with
  | nil => rfl
  | cons c rest ih => simp [run, ih]

theorem upTo_length (rows : List α) : P.upTo rows rows.length = P.ensure rows := by
  have := P.run_length (P.taken rows) rows
  simp [upTo, ensure, ← this]

theorem upTo_nodup_iff (hP : P.Lawful)
    (hfree : ∀ c taken, free c taken ↔ ∀ n ∈ P.next c taken, n ∉ taken)
    (h : (P.tags rows).Nodup) :
    (∀ k, (P.tags (P.upTo rows k)).Nodup) ↔ P.Along free (P.taken rows) rows :=
  run_nodup_iff hP hfree (holds_taken h)

theorem ensure_nodup (h : ∀ k, (P.tags (P.upTo rows k)).Nodup) : (P.tags (P.ensure rows)).Nodup :=
  P.upTo_length rows ▸ h rows.length

/-- A pass that renames nothing only adds tags. -/
theorem tags_sublist
    (hkeep : ∀ {c taken n}, P.next c taken = some n → given (P.tag c) = none)
    (taken : List Text) (rows : List α) :
    (P.tags rows).Sublist (P.tags (P.run taken rows)) := by
  induction rows generalizing taken with
  | nil => exact List.Sublist.refl _
  | cons c rest ih =>
    simp only [run, tags_cons]
    refine List.Sublist.append ?_ (ih _)
    cases hnext : P.next c taken with
    | none => simp [row, hnext]
    | some n => simp [hkeep hnext]

theorem upTo_sublist
    (hkeep : ∀ {c taken n}, P.next c taken = some n → given (P.tag c) = none)
    (rows : List α) (k : Nat) : (P.tags (P.upTo rows k)).Sublist (P.tags (P.ensure rows)) := by
  unfold upTo ensure
  generalize P.taken rows = taken
  induction rows generalizing taken k with
  | nil => simp [run]
  | cons c rest ih =>
    cases k with
    | zero => simpa using tags_sublist hkeep taken (c :: rest)
    | succ k =>
      simp only [run, List.take_succ_cons, List.drop_succ_cons, List.cons_append, tags_cons]
      exact (List.Sublist.refl _).append (ih k _)

theorem take_length (taken : List Text) (c : α) :
    (P.take taken c).length ≤ taken.length + 1 := by
  cases hnext : P.next c taken with
  | none => simp [take, hnext]
  | some n =>
    have herase : ((given (P.tag c)).elim taken taken.erase).length ≤ taken.length := by
      cases given (P.tag c) with
      | none => exact le_rfl
      | some old => exact List.length_erase_le
    simp only [take, hnext, List.length_insert]
    split <;> omega

/-- What the pass does to each row, with at most `m` tags taken. -/
theorem forall₂_run {R : α → α → Prop} {m : Nat}
    (hrow : ∀ c taken, taken.length ≤ m → R c (P.row taken c)) :
    ∀ taken rows, taken.length + rows.length ≤ m → List.Forall₂ R rows (P.run taken rows)
  | _, [], _ => .nil
  | taken, c :: rest, h => by
    have := P.take_length taken c
    simp only [List.length_cons] at h
    exact .cons (hrow c taken (by omega)) (forall₂_run hrow _ rest (by omega))

end TagPass

/-! ## The names -/

section Names
variable {u : Unicode} {base : Text} {seq : UserSeq} {taken : List Text} {n : Nat}

theorem digits_ne_nil : digits n ≠ [] := Nat.toDigits_ne_nil

theorem digits_length (h : n < 10 ^ 10) : (digits n).length ≤ 10 :=
  (Nat.length_toDigits_le_iff (by decide) (by decide)).mpr h

theorem seq_lt (h : n < 10 ^ 10) : seq.orElse n < 10 ^ 10 := by
  cases seq with
  | none => exact h
  | some k => exact k.isLt.trans (by decide)

/-- A number is left of the second candidate at least. -/
theorem exists_numberedTag (base : Text) (seq : UserSeq) (taken : List Text) :
    ∃ raw, normalizeTag u raw = some (numberedTag u base seq taken) := by
  set m := seq.orElse (taken.length + 1) with hm
  obtain ⟨c, hc⟩ := List.exists_mem_of_ne_nil (digits m) digits_ne_nil
  have hdigit : c.isDigit = true := Nat.isDigit_of_mem_toDigits (by decide) (by decide) hc
  have hmem : c ∈ base ++ '_' :: digits m := by simp [hc]
  obtain ⟨tag, htag⟩ := normalizeTag_digit (u := u) hmem hdigit
  refine ⟨base ++ '_' :: digits m, ?_⟩
  simp only [numberedTag, ← hm, htag, Option.getD_some]

theorem numberedTag_length : (numberedTag u base seq taken).length ≤ MAX_TAG_LENGTH :=
  let ⟨_, h⟩ := exists_numberedTag base seq taken
  normalizeTag_length h

theorem numberedTag_ne_nil : numberedTag u base seq taken ≠ [] :=
  let ⟨_, h⟩ := exists_numberedTag base seq taken
  normalizeTag_ne_nil h

/-- A name, or a word with a number when nothing is left of the name. -/
theorem named_length {name word : Text} (hword : word.length ≤ 6) (h : n < 10 ^ 10) :
    ((normalizeTag u name).getD (word ++ digits n)).length ≤ MAX_TAG_LENGTH := by
  cases hname : normalizeTag u name with
  | some tag => exact normalizeTag_length hname
  | none =>
    have := digits_length h
    simp only [Option.getD_none, List.length_append, MAX_TAG_LENGTH]
    omega

theorem named_ne_nil {name word : Text} :
    (normalizeTag u name).getD (word ++ digits n) ≠ [] := by
  cases hname : normalizeTag u name with
  | some tag => exact normalizeTag_ne_nil hname
  | none => simp [digits_ne_nil]

variable {brand model : Text} {area : Option Text}

theorem vehicleTag_length : (vehicleTag u brand model seq taken).length ≤ MAX_TAG_LENGTH := by
  simp only [vehicleTag]
  split
  · exact named_length (by decide) (seq_lt (by decide))
  · exact numberedTag_length

theorem vehicleTag_ne_nil : vehicleTag u brand model seq taken ≠ [] := by
  simp only [vehicleTag]
  split
  · exact named_ne_nil
  · exact numberedTag_ne_nil

theorem vehicleTag_mem_iff : vehicleTag u brand model seq taken ∈ taken ↔
    vehicleBase u brand model seq ∈ taken ∧
      numberedTag u (vehicleBase u brand model seq) seq taken ∈ taken := by
  grind [vehicleTag]

theorem propertyTag_length (h : taken.length < 2 ^ 33) :
    (propertyTag u area seq taken).length ≤ MAX_TAG_LENGTH := by
  simp only [propertyTag]
  split
  · exact named_length (by decide) (seq_lt (by omega))
  · exact numberedTag_length

theorem propertyTag_ne_nil : propertyTag u area seq taken ≠ [] := by
  simp only [propertyTag]
  split
  · exact named_ne_nil
  · exact numberedTag_ne_nil

theorem propertyTag_mem_iff : propertyTag u area seq taken ∉ taken ↔ AreaFree u area seq taken := by
  grind [propertyTag, AreaFree]

end Names

/-! ## The two passes -/

section Passes
variable {u : Unicode} {taken : List Text} {n : Text}

theorem vehicleTags_next {c : Vehicle} : (vehicleTags u).next c taken = some n ↔
    given c.tag = none ∧ vehicleTag u c.brand c.model c.seq taken = n := by
  simp [vehicleTags, Option.isSome_iff_ne_none]

theorem propertyTags_next {p : Property} : (propertyTags u).next p taken = some n ↔
    given p.tag = none ∧ propertyTag u (p.areaFa.orElse fun _ => p.area) p.seq taken = n ∨
      ∃ t, given p.tag = some t ∧ (isLatinTag t ∧ (given p.areaFa).isSome) ∧
        propertyTag u p.areaFa p.seq taken = n ∧ n ≠ t ∧ ¬ isLatinTag n := by
  cases h : given p.tag with
  | none => simp [propertyTags, h]
  | some t =>
    simp only [propertyTags, h]
    split <;> grind

theorem vehicleTags_lawful : (vehicleTags u).Lawful where
  tag_setTag _ _ := rfl
  next_ne_nil h := by
    obtain ⟨-, rfl⟩ := vehicleTags_next.mp h
    exact vehicleTag_ne_nil
  next_ne h := by
    have hnone : given _ = none := (vehicleTags_next.mp h).1
    exact fun hsome => nomatch hnone.symm.trans hsome

theorem propertyTags_lawful : (propertyTags u).Lawful where
  tag_setTag _ _ := rfl
  next_ne_nil h := by
    obtain ⟨-, rfl⟩ | ⟨t, -, -, rfl, -⟩ := propertyTags_next.mp h <;> exact propertyTag_ne_nil
  next_ne h hsome := by
    obtain ⟨hnone, -⟩ | ⟨t, ht, -, -, hne, -⟩ := propertyTags_next.mp h
    · exact nomatch hnone.symm.trans hsome
    · exact hne (Option.some.inj (hsome.symm.trans ht))

theorem vehicleFree_iff (c : Vehicle) (taken : List Text) :
    VehicleFree u c taken ↔ ∀ n ∈ (vehicleTags u).next c taken, n ∉ taken := by
  simp only [Option.mem_def, vehicleTags_next, VehicleFree]
  grind [vehicleTag_mem_iff]

theorem propertyFree_iff (p : Property) (taken : List Text) :
    PropertyFree u p taken ↔ ∀ n ∈ (propertyTags u).next p taken, n ∉ taken := by
  simp only [Option.mem_def, propertyTags_next, PropertyFree]
  cases given p.tag with
  | none => grind [propertyTag_mem_iff]
  | some t => grind [propertyTag, AreaFree]

/-- What becomes of a car: it keeps its tag, or it had none and gets a short one. -/
def Vehicle.Tagged (c c' : Vehicle) : Prop :=
  c' = c ∨ given c.tag = none ∧ ∃ n, n.length ≤ MAX_TAG_LENGTH ∧ c' = { c with tag := some n }

/-- The same of a property; one with a Latin tag and a Persian name may be renamed. -/
def Property.Tagged (p p' : Property) : Prop :=
  p' = p ∨ (∀ t ∈ given p.tag, isLatinTag t ∧ (given p.areaFa).isSome) ∧
    ∃ n, n.length ≤ MAX_TAG_LENGTH ∧ p' = { p with tag := some n }

theorem vehicle_tagged (c : Vehicle) (taken : List Text) :
    c.Tagged ((vehicleTags u).row taken c) := by
  cases h : (vehicleTags u).next c taken with
  | none => exact .inl (by simp only [TagPass.row, h])
  | some n =>
    obtain ⟨hnone, hn⟩ := vehicleTags_next.mp h
    refine .inr ⟨hnone, n, hn ▸ vehicleTag_length, ?_⟩
    simp only [TagPass.row, h]
    rfl

theorem property_tagged (p : Property) (hm : taken.length < 2 ^ 33) :
    p.Tagged ((propertyTags u).row taken p) := by
  cases h : (propertyTags u).next p taken with
  | none => exact .inl (by simp only [TagPass.row, h])
  | some n =>
    have hrow : (propertyTags u).row taken p = { p with tag := some n } := by
      simp only [TagPass.row, h]
      rfl
    obtain ⟨hnone, hn⟩ | ⟨t, ht, hlatin, hn, -⟩ := propertyTags_next.mp h
    · exact .inr ⟨by simp [hnone], n, hn ▸ propertyTag_length hm, hrow⟩
    · exact .inr ⟨by simpa [ht] using hlatin, n, hn ▸ propertyTag_length hm, hrow⟩

/-- Every asset keeps its tag or gets a short one. The tags of the cars differ in the end, and those
of the properties after every row, exactly if no number put to a taken name makes another taken
one. -/
theorem tags_differ (u : Unicode) (cars : List Vehicle) (list : List Property)
    (hcars : ((vehicleTags u).tags cars).Nodup) (hlist : ((propertyTags u).tags list).Nodup)
    (hlength : list.length < 2 ^ 32) :
    (List.Forall₂ Vehicle.Tagged cars (ensureVehicleTags u cars) ∧
      (((vehicleTags u).tags (ensureVehicleTags u cars)).Nodup ↔
        (vehicleTags u).Along (VehicleFree u) ((vehicleTags u).taken cars) cars)) ∧
    List.Forall₂ Property.Tagged list (ensurePropertyTags u list) ∧
      ((∀ k, ((propertyTags u).tags ((propertyTags u).upTo list k)).Nodup) ↔
        (propertyTags u).Along (PropertyFree u) ((propertyTags u).taken list) list) ∧
      ((propertyTags u).Along (PropertyFree u) ((propertyTags u).taken list) list →
        ((propertyTags u).tags (ensurePropertyTags u list)).Nodup) := by
  have hcar := TagPass.upTo_nodup_iff vehicleTags_lawful vehicleFree_iff hcars
  have hproperty := TagPass.upTo_nodup_iff propertyTags_lawful propertyFree_iff hlist
  refine ⟨⟨TagPass.forall₂_run (fun c taken _ => vehicle_tagged c taken) _ cars le_rfl,
    fun hlast => hcar.mp fun k => ?_, fun hfree => TagPass.ensure_nodup (hcar.mpr hfree)⟩, ?_,
    hproperty, fun hfree => TagPass.ensure_nodup (hproperty.mpr hfree)⟩
  · exact (TagPass.upTo_sublist (fun h => (vehicleTags_next.mp h).1) cars k).nodup hlast
  · have htaken : ((propertyTags u).taken list).length ≤ list.length :=
      (List.dedup_sublist _).length_le.trans (List.length_filterMap_le _ _)
    refine TagPass.forall₂_run (m := 2 * list.length)
      (fun p taken hm => property_tagged p (by omega)) _ list (by omega)

end Passes

/-! ## A number that is part of a name -/

/-- A piece of Unicode: ASCII and the Persian digits. -/
def ascii : Unicode where
  nfc s := s
  lower s := s.map Char.toLower
  space c := c.isWhitespace
  word c := c.isAlphanum || PersianDigit c
  nfc_digit _ _ h _ := h
  lower_digit := mem_map_toLower
  space_digit := isWhitespace_digit
  word_digit c h := by simp [h]

def xTag : Text := ['b', 'm', 'w', '_', 'x']
def x3Tag : Text := xTag ++ ['_', '۳']

/-- The second car is a model «x 3», and the third one is the second «x» and has the number 3. -/
def bmws : List Vehicle :=
  [⟨1, ['b', 'm', 'w'], ['x'], some 1, some xTag⟩, ⟨2, ['b', 'm', 'w'], ['x', ' ', '3'], some 2, none⟩,
    ⟨3, ['b', 'm', 'w'], ['x'], some 3, none⟩]

/-- The same with the names of three areas. -/
def areas : List Property :=
  [⟨1, some xTag, none, some 1, some xTag⟩, ⟨2, some x3Tag, none, some 2, none⟩,
    ⟨3, some xTag, none, some 3, none⟩]

theorem numbers_collide :
    (((vehicleTags ascii).tags bmws).Nodup ∧ (bmws.map Vehicle.seq).Nodup ∧
      ¬ ((vehicleTags ascii).tags (ensureVehicleTags ascii bmws)).Nodup) ∧
    ((propertyTags ascii).tags areas).Nodup ∧ (areas.map Property.seq).Nodup ∧
      ¬ ((propertyTags ascii).tags (ensurePropertyTags ascii areas)).Nodup := by
  decide

/-- Two cars of one name; a Latin tag that becomes Persian, and a second area of its name. -/
def pair : List Vehicle :=
  [⟨1, ['b', 'm', 'w'], ['x'], some 1, some xTag⟩, ⟨2, ['b', 'm', 'w'], ['x'], some 2, none⟩]

def renamed : List Property :=
  [⟨1, none, some x3Tag, some 1, some xTag⟩, ⟨2, some x3Tag, none, some 2, none⟩]

theorem numbered_apart : ((vehicleTags ascii).tags (ensureVehicleTags ascii pair)).Nodup ∧
    ((propertyTags ascii).tags (ensurePropertyTags ascii renamed)).Nodup :=
  have h := tags_differ ascii pair renamed (by decide) (by decide) (by decide)
  ⟨h.1.2.mpr (by decide), h.2.2.2 (by decide)⟩

end Pwos
