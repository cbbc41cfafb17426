import Pwos.Ledger.PostEntry
import Pwos.Lib.Json
import Pwos.Lib.StableSort

/-!
# The text of a payload

`canonicalizePayload` of `features/ledger/service.ts`, down to the text it hashes. Elsewhere a
payload is compared as a `Digest`. Here ids and numbers are the texts the caller sends: numbers
are read and written again, postings are sorted by the locale's order on a text that names
their account, asset and quantity, and lots stay in the order they came in.
-/

namespace Pwos

/-- `D(text)`. -/
def Decimal.ofText (text : String) : Decimal := Decimal.parse text.toList

/-- `toString`. -/
def Decimal.text (d : Decimal) : String := String.ofList d.toText

/-- `D(text).toString()`. -/
def respelled (text : String) : String := (Decimal.ofText text).text

theorem Decimal.ofText_text (d : Decimal) : ofText d.text = d := by
  simp [ofText, text, parse_toText]

theorem Decimal.text_injective : Function.Injective text :=
  Function.LeftInverse.injective ofText_text

theorem respelled_inj {s t : String} :
    respelled s = respelled t ↔ Decimal.ofText s = Decimal.ofText t :=
  Decimal.text_injective.eq_iff

/-- Two spellings of one amount. -/
example : respelled " 1.50" = respelled "0001.5" := by decide

/-! ## What the caller sends -/

structure WrittenPosting where
  accountId : String
  assetId : String
  quantity : String
  baseValue : String
  memo : Option String := none
  deriving DecidableEq

structure WrittenLot where
  accountId : String
  assetId : String
  quantity : String
  costBase : String
  openedAt : Option String := none
  purchaseFxRate : Option String := none
  deriving DecidableEq

structure WrittenCloseLot where
  assetId : String
  quantity : String
  proceedsBase : String
  deriving DecidableEq

structure WrittenEntry where
  entryDate : String
  type : EntryType
  description : String
  source : Option EntrySource := none
  reference : Option String := none
  postings : List WrittenPosting
  categoryId : Option String := none
  openLot : Option WrittenLot := none
  openLots : Option (List WrittenLot) := none
  closeLot : Option WrittenCloseLot := none
  userId : Option String := none
  idempotencyKey : Option String := none
  preventOverdraft : Option Bool := none

/-- `openLots`, else the single `openLot`. An empty list is a list. -/
def WrittenEntry.lotList (input : WrittenEntry) : List WrittenLot :=
  input.openLots.getD input.openLot.toList

/-! ## What is hashed -/

def EntryType.word : EntryType → String
  | .transfer => "transfer"
  | .buy => "buy"
  | .sell => "sell"
  | .income => "income"
  | .expense => "expense"
  | .fx => "fx"
  | .debt => "debt"
  | .debtRepayment => "debt_repayment"
  | .installment => "installment"
  | .adjustment => "adjustment"
  | .opening => "opening"

theorem EntryType.word_injective : Function.Injective word := by
  intro a b
  cases a <;> cases b <;> decide

/-- A posting of `sortedPostings`. -/
structure HashedPosting where
  accountId : String
  assetId : String
  quantity : String
  baseValue : String
  deriving DecidableEq

namespace HashedPosting

/-- `a.accountId + a.assetId + a.quantity`. -/
def key (p : HashedPosting) : String := p.accountId ++ p.assetId ++ p.quantity

/-- A posting with the given key. -/
def ofKey (key : String) : HashedPosting := ⟨key, "", "", ""⟩

theorem key_ofKey (key : String) : (ofKey key).key = key := by simp [HashedPosting.key, ofKey]

def json (p : HashedPosting) : Json :=
  .obj [("accountId", .str p.accountId), ("assetId", .str p.assetId),
    ("quantity", .str p.quantity), ("baseValue", .str p.baseValue)]

theorem json_injective : Function.Injective json := by
  intro p q h
  cases p
  cases q
  simpa [json] using h

end HashedPosting

def WrittenPosting.canonical (p : WrittenPosting) : HashedPosting :=
  { accountId := p.accountId
    assetId := p.assetId
    quantity := respelled p.quantity
    baseValue := respelled p.baseValue }

/-- A text that is missing or empty is left out. -/
def nonEmpty (text : Option String) : Option String := text.filter (· ≠ "")

def WrittenLot.json (l : WrittenLot) : Json :=
  .obj ([("accountId", Json.str l.accountId), ("assetId", Json.str l.assetId),
      ("quantity", Json.str (respelled l.quantity)),
      ("costBase", Json.str (respelled l.costBase))] ++
    ((nonEmpty l.openedAt).toList.map fun d => ("openedAt", Json.str d)) ++
    ((nonEmpty l.purchaseFxRate).toList.map fun r => ("purchaseFxRate", Json.str (respelled r))))

def WrittenCloseLot.json (l : WrittenCloseLot) : Json :=
  .obj [("assetId", .str l.assetId), ("quantity", .str (respelled l.quantity)),
    ("proceedsBase", .str (respelled l.proceedsBase))]

/-- The value, or `null`. -/
def Json.orNull (value : Option Json) : Json := value.getD .null

section Payload

/-! `le` is the order `localeCompare` gives two texts, whatever the locale. -/

variable (le : String → String → Prop)

/-- The order postings are sorted by. -/
def HashedPosting.before (p q : HashedPosting) : Prop := le p.key q.key

variable [DecidableRel le]

instance : DecidableRel (HashedPosting.before le) :=
  fun p q => inferInstanceAs (Decidable (le p.key q.key))

instance [Std.Total le] : Std.Total (HashedPosting.before le) :=
  ⟨fun p q => total_of le p.key q.key⟩

instance [IsTrans String le] : IsTrans HashedPosting (HashedPosting.before le) :=
  ⟨fun p q s => @IsTrans.trans _ le _ p.key q.key s.key⟩

namespace WrittenEntry

def sortedPostings (input : WrittenEntry) : List HashedPosting :=
  (input.postings.map WrittenPosting.canonical).insertionSort (HashedPosting.before le)

def canonicalObj (input : WrittenEntry) : Json :=
  .obj [("entryDate", .str input.entryDate),
    ("type", .str input.type.word),
    ("description", .str input.description),
    ("categoryId", .orNull (input.categoryId.map .str)),
    ("postings", .arr ((input.sortedPostings le).map HashedPosting.json)),
    ("openLots", .arr (input.lotList.map WrittenLot.json)),
    ("closeLot", .orNull (input.closeLot.map WrittenCloseLot.json))]

/-- The text `canonicalizePayload` hashes. -/
def hashInput (input : WrittenEntry) : List Char := (input.canonicalObj le).text

end WrittenEntry

end Payload

/-! ## What the text says -/

/-- A posting apart from its spelling and its memo. -/
structure PostingContent where
  accountId : String
  assetId : String
  quantity : Decimal
  baseValue : Decimal
  deriving DecidableEq

structure LotContent where
  accountId : String
  assetId : String
  quantity : Decimal
  costBase : Decimal
  openedAt : Option String
  purchaseFxRate : Option Decimal
  deriving DecidableEq

structure CloseLotContent where
  assetId : String
  quantity : Decimal
  proceedsBase : Decimal
  deriving DecidableEq

def WrittenPosting.content (p : WrittenPosting) : PostingContent :=
  ⟨p.accountId, p.assetId, .ofText p.quantity, .ofText p.baseValue⟩

def WrittenLot.content (l : WrittenLot) : LotContent :=
  ⟨l.accountId, l.assetId, .ofText l.quantity, .ofText l.costBase, nonEmpty l.openedAt,
    (nonEmpty l.purchaseFxRate).map .ofText⟩

def WrittenCloseLot.content (l : WrittenCloseLot) : CloseLotContent :=
  ⟨l.assetId, .ofText l.quantity, .ofText l.proceedsBase⟩

/-- What a posting is sorted by. -/
def WrittenPosting.sortKey (p : WrittenPosting) : String :=
  p.accountId ++ p.assetId ++ respelled p.quantity

theorem WrittenPosting.canonical_inj {p q : WrittenPosting} :
    p.canonical = q.canonical ↔ p.content = q.content := by
  simp [canonical, content, respelled_inj]

theorem WrittenCloseLot.json_inj {l m : WrittenCloseLot} :
    l.json = m.json ↔ l.content = m.content := by
  simp [json, content, respelled_inj]

theorem WrittenLot.json_inj {l m : WrittenLot} : l.json = m.json ↔ l.content = m.content := by
  unfold json content
  cases nonEmpty l.openedAt <;> cases nonEmpty m.openedAt <;>
    cases nonEmpty l.purchaseFxRate <;> cases nonEmpty m.purchaseFxRate <;>
      simp [respelled_inj]

section Payload
variable (le : String → String → Prop) [DecidableRel le]

/-- The contents of the postings whose sort key ties with `key`, in their order. -/
def WrittenEntry.postingsUnder (key : String) (x : WrittenEntry) : List PostingContent :=
  (x.postings.filter fun p => Ties le key p.sortKey).map WrittenPosting.content

/-- The two inputs say the same. The order of postings counts where their sort keys tie, and
the order of lots counts. -/
structure SamePayload (x y : WrittenEntry) : Prop where
  entryDate : x.entryDate = y.entryDate
  type : x.type = y.type
  description : x.description = y.description
  categoryId : x.categoryId = y.categoryId
  postings : ∀ key, x.postingsUnder le key = y.postingsUnder le key
  lots : x.lotList.map WrittenLot.content = y.lotList.map WrittenLot.content
  closeLot : x.closeLot.map WrittenCloseLot.content = y.closeLot.map WrittenCloseLot.content

variable {le} {x y : WrittenEntry}

/-- Mapping by two functions that tell the same elements apart. -/
theorem map_eq_map_iff {α β γ : Type} {f : α → β} {g : α → γ}
    (h : ∀ {a b}, f a = f b ↔ g a = g b) {xs ys : List α} :
    xs.map f = ys.map f ↔ xs.map g = ys.map g := by
  induction xs generalizing ys with
  | nil => cases ys <;> simp
  | cons a xs ih => cases ys <;> simp [ih, h]

theorem orNull_eq_iff {α β : Type} {f : α → Json} {g : α → β} (hnull : ∀ a, f a ≠ .null)
    (h : ∀ {a b}, f a = f b ↔ g a = g b) {o p : Option α} :
    Json.orNull (o.map f) = .orNull (p.map f) ↔ o.map g = p.map g := by
  cases o with
  | none =>
    cases p with
    | none => simp
    | some b => simp [Json.orNull, (hnull b).symm]
  | some a =>
    cases p with
    | none => simp [Json.orNull, hnull a]
    | some b => simpa [Json.orNull] using h

theorem tiesWith_canonical (a : HashedPosting) (ps : List WrittenPosting) :
    tiesWith (HashedPosting.before le) a (ps.map WrittenPosting.canonical) =
      (ps.filter fun p => Ties le a.key p.sortKey).map WrittenPosting.canonical :=
  List.filter_map

/-- The sorted postings show the order of ties and nothing else of the order. -/
theorem sortedPostings_eq_iff [Std.Total le] [IsTrans String le] :
    x.sortedPostings le = y.sortedPostings le ↔
      ∀ key, x.postingsUnder le key = y.postingsUnder le key := by
  refine insertionSort_eq_iff.trans ?_
  constructor
  · intro h key
    have hclass := h (.ofKey key)
    rw [tiesWith_canonical, tiesWith_canonical, HashedPosting.key_ofKey] at hclass
    exact (map_eq_map_iff WrittenPosting.canonical_inj).mp hclass
  · intro h a
    rw [tiesWith_canonical, tiesWith_canonical]
    exact (map_eq_map_iff WrittenPosting.canonical_inj).mpr (h a.key)

theorem canonicalObj_eq_iff [Std.Total le] [IsTrans String le] :
    x.canonicalObj le = y.canonicalObj le ↔ SamePayload le x y := by
  have hcategory : Json.orNull (x.categoryId.map .str) = .orNull (y.categoryId.map .str) ↔
      x.categoryId = y.categoryId := by
    have h := orNull_eq_iff (f := Json.str) (g := id) (o := x.categoryId) (p := y.categoryId)
      (fun _ => nofun) (by simp)
    simpa using h
  have hclose := orNull_eq_iff (f := WrittenCloseLot.json) (o := x.closeLot) (p := y.closeLot)
    (fun _ => nofun) WrittenCloseLot.json_inj
  have hpostings : (x.sortedPostings le).map HashedPosting.json =
      (y.sortedPostings le).map HashedPosting.json ↔
        ∀ key, x.postingsUnder le key = y.postingsUnder le key := by
    rw [(List.map_injective_iff.mpr HashedPosting.json_injective).eq_iff, sortedPostings_eq_iff]
  have hlots : x.lotList.map WrittenLot.json = y.lotList.map WrittenLot.json ↔
      x.lotList.map WrittenLot.content = y.lotList.map WrittenLot.content :=
    map_eq_map_iff WrittenLot.json_inj
  have htype := EntryType.word_injective.eq_iff (a := x.type) (b := y.type)
  simp only [WrittenEntry.canonicalObj, Json.obj.injEq, List.cons.injEq, Prod.mk.injEq,
    true_and, and_true, Json.str.injEq, Json.arr.injEq, htype, hcategory, hpostings, hlots, hclose]
  exact ⟨fun ⟨h₁, h₂, h₃, h₄, h₅, h₆, h₇⟩ => ⟨h₁, h₂, h₃, h₄, h₅, h₆, h₇⟩,
    fun ⟨h₁, h₂, h₃, h₄, h₅, h₆, h₇⟩ => ⟨h₁, h₂, h₃, h₄, h₅, h₆, h₇⟩⟩

theorem perm_sortedPostings (le : String → String → Prop) [DecidableRel le] (x : WrittenEntry) :
    (x.sortedPostings le).Perm (x.postings.map WrittenPosting.canonical) :=
  List.perm_insertionSort _ _

/-- What was hashed of a posting, read again. -/
def HashedPosting.read (p : HashedPosting) : PostingContent :=
  ⟨p.accountId, p.assetId, .ofText p.quantity, .ofText p.baseValue⟩

theorem WrittenPosting.read_canonical (p : WrittenPosting) : p.canonical.read = p.content := by
  simp [canonical, HashedPosting.read, content, respelled, Decimal.ofText_text]

/-- No posting is left out and none is added. -/
theorem SamePayload.perm [Std.Total le] [IsTrans String le] (h : SamePayload le x y) :
    (x.postings.map WrittenPosting.content).Perm (y.postings.map WrittenPosting.content) := by
  have hsorted : x.sortedPostings le = y.sortedPostings le := sortedPostings_eq_iff.mpr h.postings
  have hcanonical : (x.postings.map WrittenPosting.canonical).Perm
      (y.postings.map WrittenPosting.canonical) :=
    (perm_sortedPostings le x).symm.trans (hsorted ▸ perm_sortedPostings le y)
  have hread := hcanonical.map HashedPosting.read
  simpa [Function.comp_def, WrittenPosting.read_canonical] using hread

variable (le) in
/-- Postings whose sort keys tie have the same content. -/
def WrittenEntry.TiesAlike (x : WrittenEntry) : Prop :=
  ∀ p ∈ x.postings, ∀ q ∈ x.postings, Ties le p.sortKey q.sortKey → p.content = q.content

instance : Decidable (x.TiesAlike le) := inferInstanceAs (Decidable (∀ p ∈ _, ∀ q ∈ _, _ → _))

theorem postingsUnder_of_perm [Std.Total le] [IsTrans String le] {ps : List WrittenPosting}
    (hperm : x.postings.Perm ps) (hties : x.TiesAlike le) (key : String) :
    { x with postings := ps }.postingsUnder le key = x.postingsUnder le key := by
  have hclasses := tiesWith_eq_of_perm (r := HashedPosting.before le)
    (hperm.map WrittenPosting.canonical) (by
      intro a ha b hb hab
      obtain ⟨p, hp, rfl⟩ := List.mem_map.mp ha
      obtain ⟨q, hq, rfl⟩ := List.mem_map.mp hb
      exact WrittenPosting.canonical_inj.mpr (hties p hp q hq hab))
  have hclass := hclasses (.ofKey key)
  rw [tiesWith_canonical, tiesWith_canonical, HashedPosting.key_ofKey] at hclass
  exact (map_eq_map_iff WrittenPosting.canonical_inj).mp hclass.symm

variable (le) in
/-- Two inputs have one text exactly when they say the same, spellings and memos apart. Postings
may come in any order as far as their sort keys tell them apart. -/
theorem hashInput_of_entries [Std.Total le] [IsTrans String le] (x y : WrittenEntry) :
    (x.hashInput le = y.hashInput le ↔ SamePayload le x y) ∧
      (SamePayload le x y →
        (x.postings.map WrittenPosting.content).Perm (y.postings.map WrittenPosting.content)) ∧
      (x.TiesAlike le → ∀ ps, x.postings.Perm ps →
        { x with postings := ps }.hashInput le = x.hashInput le) := by
  have htext : ∀ x y : WrittenEntry, x.hashInput le = y.hashInput le ↔ SamePayload le x y :=
    fun x y => Json.text_injective.eq_iff.trans canonicalObj_eq_iff
  refine ⟨htext x y, SamePayload.perm, ?_⟩
  intro hties ps hperm
  exact (htext _ _).mpr ⟨rfl, rfl, rfl, rfl, postingsUnder_of_perm hperm hties, rfl, rfl⟩

end Payload

/-! ## Digests

The rest of the development compares payloads as `Digest`s, whose ids and amounts are values.
Under an order in which different texts never tie, two digests are equal exactly when the texts
are. -/

/-- How ids and days are written. -/
structure Spelling where
  id : Uuid → String
  id_injective : Function.Injective id
  id_length : ∀ a b, (id a).length = (id b).length
  day : IsoDate → String
  day_injective : Function.Injective day
  opened : OpenedAt → String
  opened_injective : Function.Injective opened
  opened_nonempty : ∀ o, opened o ≠ ""

section Spelling
variable (w : Spelling)

def DraftPosting.written (p : DraftPosting) : WrittenPosting :=
  ⟨w.id p.accountId, w.id p.assetId, p.quantity.text, p.baseValue.text, p.memo⟩

def LotInput.written (l : LotInput) : WrittenLot :=
  ⟨w.id l.accountId, w.id l.assetId, l.quantity.text, l.costBase.text,
    l.openedAt.map w.opened, l.purchaseFxRate.map Decimal.text⟩

def CloseLot.written (l : CloseLot) : WrittenCloseLot :=
  ⟨w.id l.assetId, l.quantity.text, l.proceedsBase.text⟩

def PostEntryInput.written (input : PostEntryInput) : WrittenEntry :=
  { entryDate := w.day input.entryDate
    type := input.type
    description := input.description
    source := input.source
    reference := input.reference
    postings := input.postings.map (DraftPosting.written w)
    categoryId := input.categoryId.map w.id
    openLot := input.openLot.map (LotInput.written w)
    openLots := input.openLots.map (List.map (LotInput.written w))
    closeLot := input.closeLot.map (CloseLot.written w)
    userId := input.userId.map w.id
    idempotencyKey := input.idempotencyKey
    preventOverdraft := some input.preventOverdraft }

variable {w}

theorem Decimal.text_ne_empty (d : Decimal) : d.text ≠ "" := by
  intro h
  have hnil : d.toText = [] := by simpa [text] using h
  simp [toText, Decimal.written, Nat.toDigits_ne_nil] at hnil

theorem nonEmpty_map {α : Type} {f : α → String} (h : ∀ a, f a ≠ "") (o : Option α) :
    nonEmpty (o.map f) = o.map f := by
  cases o <;> simp [nonEmpty, h]

theorem DraftPosting.content_written_inj {p q : DraftPosting} :
    (p.written w).content = (q.written w).content ↔ p.canonical = q.canonical := by
  simp [written, WrittenPosting.content, canonical, Decimal.ofText_text, w.id_injective.eq_iff]

theorem LotInput.content_written (l : LotInput) :
    (l.written w).content = ⟨w.id l.accountId, w.id l.assetId, l.quantity, l.costBase,
      l.openedAt.map w.opened, l.purchaseFxRate⟩ := by
  simp [written, WrittenLot.content, nonEmpty_map w.opened_nonempty,
    nonEmpty_map Decimal.text_ne_empty, Decimal.ofText_text, Function.comp_def]

theorem LotInput.content_written_injective :
    Function.Injective fun l : LotInput => (l.written w).content := by
  intro l m h
  dsimp only at h
  rw [content_written, content_written] at h
  cases l
  cases m
  simpa [w.id_injective.eq_iff, (Option.map_injective w.opened_injective).eq_iff] using h

theorem CloseLot.content_written_injective :
    Function.Injective fun l : CloseLot => (l.written w).content := by
  intro l m h
  cases l
  cases m
  simpa [written, WrittenCloseLot.content, Decimal.ofText_text, w.id_injective.eq_iff] using h

theorem PostEntryInput.lotList_written (input : PostEntryInput) :
    (input.written w).lotList = input.lotList.map (LotInput.written w) := by
  unfold WrittenEntry.lotList lotList written
  cases input.openLots <;> cases input.openLot <;> rfl

/-- The key of a posting with these ids and this amount. -/
def Spelling.key (w : Spelling) (p : CanonicalPosting) : String :=
  w.id p.accountId ++ w.id p.assetId ++ p.quantity.text

theorem DraftPosting.sortKey_written (p : DraftPosting) :
    (p.written w).sortKey = w.key p.canonical := by
  simp [written, WrittenPosting.sortKey, respelled, Decimal.ofText_text, Spelling.key, canonical]

/-- The parts of a key stand at fixed places. -/
theorem Spelling.key_inj {p q : CanonicalPosting} :
    w.key p = w.key q ↔
      p.accountId = q.accountId ∧ p.assetId = q.assetId ∧ p.quantity = q.quantity := by
  refine ⟨fun h => ?_, fun ⟨h₁, h₂, h₃⟩ => by simp [key, h₁, h₂, h₃]⟩
  have hlists := congrArg String.toList h
  simp only [key, String.toList_append, List.append_assoc] at hlists
  obtain ⟨haccount, hrest⟩ := List.append_inj hlists (w.id_length _ _)
  obtain ⟨hasset, hquantity⟩ := List.append_inj hrest (w.id_length _ _)
  exact ⟨w.id_injective (String.toList_inj.mp haccount),
    w.id_injective (String.toList_inj.mp hasset),
    Decimal.text_injective (String.toList_inj.mp hquantity)⟩

theorem CanonicalPosting.ties_iff {p q : CanonicalPosting} :
    Ties CanonicalPosting.before p q ↔ w.key p = w.key q := by
  rw [Spelling.key_inj, Ties, before, before]
  constructor
  · intro h
    have hle : p.quantity ≤ q.quantity → q.quantity ≤ p.quantity → p.quantity = q.quantity :=
      le_antisymm
    grind
  · rintro ⟨h₁, h₂, h₃⟩
    simp [h₁, h₂, h₃]

instance : Std.Total CanonicalPosting.before := by
  constructor
  intro p q
  have hle : p.quantity ≤ q.quantity ∨ q.quantity ≤ p.quantity := le_total _ _
  unfold CanonicalPosting.before
  grind

instance : IsTrans CanonicalPosting CanonicalPosting.before := by
  constructor
  intro p q s
  have hle : p.quantity ≤ q.quantity → q.quantity ≤ s.quantity → p.quantity ≤ s.quantity :=
    le_trans
  unfold CanonicalPosting.before
  grind

variable {le : String → String → Prop} [DecidableRel le] {a b : PostEntryInput}

theorem tiesWith_canonical_postings (k : CanonicalPosting) (ps : List DraftPosting) :
    tiesWith CanonicalPosting.before k (ps.map DraftPosting.canonical) =
      (ps.filter fun p => w.key k = w.key p.canonical).map DraftPosting.canonical := by
  simp only [tiesWith, List.filter_map, Function.comp_def, CanonicalPosting.ties_iff (w := w)]

theorem postingsUnder_written [Std.Refl le] [Std.Antisymm le] (key : String) :
    (a.written w).postingsUnder le key =
      (a.postings.filter fun p => key = w.key p.canonical).map
        fun p => (p.written w).content := by
  have hties : ∀ s t, Ties le s t ↔ s = t := fun s t =>
    ⟨fun h => antisymm_of le h.1 h.2, fun h => h ▸ ⟨refl_of le s, refl_of le s⟩⟩
  simp only [WrittenEntry.postingsUnder, PostEntryInput.written, List.filter_map, List.map_map,
    Function.comp_def, DraftPosting.sortKey_written, hties]

variable (w le) in
theorem sorted_canonical_eq_iff [Std.Refl le] [Std.Antisymm le] :
    (a.postings.map DraftPosting.canonical).insertionSort CanonicalPosting.before =
        (b.postings.map DraftPosting.canonical).insertionSort CanonicalPosting.before ↔
      ∀ key, (a.written w).postingsUnder le key = (b.written w).postingsUnder le key := by
  have hclass : ∀ k : CanonicalPosting,
      tiesWith CanonicalPosting.before k (a.postings.map DraftPosting.canonical) =
          tiesWith CanonicalPosting.before k (b.postings.map DraftPosting.canonical) ↔
        (a.written w).postingsUnder le (w.key k) = (b.written w).postingsUnder le (w.key k) := by
    intro k
    rw [tiesWith_canonical_postings (w := w), tiesWith_canonical_postings (w := w),
      postingsUnder_written, postingsUnder_written]
    exact map_eq_map_iff DraftPosting.content_written_inj.symm
  rw [insertionSort_eq_iff]
  refine ⟨fun h key => ?_, fun h k => (hclass k).mpr (h (w.key k))⟩
  by_cases hkey : ∃ k, key = w.key k
  · obtain ⟨k, rfl⟩ := hkey
    exact (hclass k).mp (h k)
  · have hnone : ∀ k, key ≠ w.key k := fun k hk => hkey ⟨k, hk⟩
    simp [postingsUnder_written, hnone]

/-- Comparing digests is comparing texts. -/
theorem canonicalizePayload_eq_iff [Std.Total le] [IsTrans String le] [Std.Antisymm le] :
    canonicalizePayload a = canonicalizePayload b ↔
      (a.written w).hashInput le = (b.written w).hashInput le := by
  have htext : (a.written w).hashInput le = (b.written w).hashInput le ↔
      SamePayload le (a.written w) (b.written w) :=
    Json.text_injective.eq_iff.trans canonicalObj_eq_iff
  rw [htext]
  unfold canonicalizePayload
  rw [Digest.mk.injEq, sorted_canonical_eq_iff w le]
  have hlots : (a.written w).lotList.map WrittenLot.content =
      (b.written w).lotList.map WrittenLot.content ↔ a.lotList = b.lotList := by
    rw [PostEntryInput.lotList_written, PostEntryInput.lotList_written, List.map_map, List.map_map]
    exact (List.map_injective_iff.mpr LotInput.content_written_injective).eq_iff
  have hclose : (a.written w).closeLot.map WrittenCloseLot.content =
      (b.written w).closeLot.map WrittenCloseLot.content ↔ a.closeLot = b.closeLot := by
    unfold PostEntryInput.written
    dsimp only
    rw [Option.map_map, Option.map_map]
    exact (Option.map_injective CloseLot.content_written_injective).eq_iff
  constructor
  · rintro ⟨h₁, h₂, h₃, h₄, h₅, h₆, h₇⟩
    exact ⟨congrArg w.day h₁, h₂, h₃, congrArg (Option.map w.id) h₄, h₅, hlots.mpr h₆,
      hclose.mpr h₇⟩
  · rintro ⟨h₁, h₂, h₃, h₄, h₅, h₆, h₇⟩
    exact ⟨w.day_injective h₁, h₂, h₃, Option.map_injective w.id_injective h₄, h₅, hlots.mp h₆,
      hclose.mp h₇⟩

end Spelling

section Demo

def demoTwoLots : List WrittenLot := [⟨"wallet", "gold", "1", "50", none, none⟩,
  ⟨"wallet", "gold", "2", "90", none, none⟩]

/-- Two fees of one amount, worth different values. -/
def demoFees : List WrittenPosting :=
  [⟨"fees", "usd", "1", "1", none⟩, ⟨"fees", "usd", "1.0", "2", none⟩]

def demoBuyText : WrittenEntry :=
  { entryDate := "2024-01-01", type := .buy, description := "gold"
    postings := [⟨"wallet", "gold", "3", "140", none⟩, ⟨"bank", "usd", "-140", "-140.0", none⟩]
    openLots := some demoTwoLots }

/-- The order of lots counts, and so does the order of postings with one sort key. -/
theorem orders_hashed :
    { demoBuyText with openLots := some demoTwoLots.reverse }.hashInput (· ≤ ·) ≠
        demoBuyText.hashInput (· ≤ ·) ∧
      { demoBuyText with postings := demoFees.reverse }.hashInput (· ≤ ·) ≠
        { demoBuyText with postings := demoFees }.hashInput (· ≤ ·) := by
  decide +kernel

theorem hashInput_of_demoBuyText :
    { demoBuyText with postings := demoBuyText.postings.reverse }.hashInput (· ≤ ·) =
      demoBuyText.hashInput (· ≤ ·) :=
  (hashInput_of_entries (· ≤ ·) demoBuyText demoBuyText).2.2 (by decide) _
    demoBuyText.postings.reverse_perm.symm

end Demo

end Pwos
