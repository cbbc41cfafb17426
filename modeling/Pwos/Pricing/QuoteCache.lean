import Pwos.Lib.CodeUnits
import Pwos.Lib.OrderedMap

/-!
# The quote cache

`QuoteCache` of `features/pricing/providers/cache.ts`: quotes are kept for a while under a key of
their provider and reference, in the order in which the keys came in. An expired quote goes when it
is read, and the oldest key when there is no room. What a quote is does not matter here.
-/

namespace Pwos

namespace QuoteCache

structure Entry (Quote : Type) where
  quote : Quote
  expiresAt : Nat

abbrev Entries (Quote : Type) := OrderedMap String (Entry Quote)

def DEFAULT_TTL_MS : Nat := 45000

def MAX_ENTRIES : Nat := 2000

def key (providerId ref : String) : String := providerId ++ ":" ++ ref

variable {Quote : Type}

namespace Entries

/-- What is there, and the cache after it was read. -/
def get (now : Nat) (m : Entries Quote) (k : String) : Option Quote × Entries Quote :=
  match m.lookup k with
  | none => (none, m)
  | some hit => if hit.expiresAt ≤ now then (none, m.delete k) else (some hit.quote, m)

def evictOldest (m : Entries Quote) : Entries Quote :=
  match m.entries.head? with
  | none => m
  | some (oldest, _) => m.delete oldest

def set (now : Nat) (m : Entries Quote) (k : String) (quote : Quote) : Entries Quote :=
  let m := if MAX_ENTRIES ≤ m.size then m.evictOldest else m
  OrderedMap.set m k ⟨quote, now + DEFAULT_TTL_MS⟩

def setMany (now : Nat) (m : Entries Quote) (providerId : String)
    (quotes : OrderedMap String Quote) : Entries Quote :=
  quotes.entries.foldl (fun m e => m.set now (key providerId e.1) e.2) m

end Entries

/-- What the cache answers, what is to be fetched, and the cache after it was read. -/
structure Partition (Quote : Type) where
  hits : OrderedMap String Quote := .empty
  misses : List String := []
  entries : Entries Quote

def Partition.read (now : Nat) (providerId : String) (p : Partition Quote) (ref : String) :
    Partition Quote :=
  match p.entries.get now (key providerId ref) with
  | (some hit, entries) => { p with hits := p.hits.set ref hit, entries }
  | (none, entries) => { p with misses := p.misses ++ [ref], entries }

def partition (now : Nat) (m : Entries Quote) (providerId : String) (refs : List String) :
    Partition Quote :=
  refs.foldl (Partition.read now providerId) { entries := m }

/-! ## What is kept -/

/-- Everything in `m` is in `n` too. -/
def Within (m n : Entries Quote) : Prop := ∀ k e, m.lookup k = some e → n.lookup k = some e

variable {now : Nat} {m n : Entries Quote} {k : String} {e : Entry Quote} {quote : Quote}

theorem Within.refl : Within m m := fun _ _ h => h

theorem Within.trans {l : Entries Quote} (h : Within l m) (h' : Within m n) : Within l n :=
  fun k e hk => h' k e (h k e hk)

theorem within_delete : Within (m.delete k) m := by
  intro j e h
  by_cases hne : j = k
  · rw [hne, OrderedMap.lookup_delete_self] at h
    cases h
  · rwa [OrderedMap.lookup_delete_of_ne hne] at h

theorem within_evictOldest : Within m.evictOldest m := by
  unfold Entries.evictOldest
  split
  · exact .refl
  · exact within_delete

theorem lookup_set {j : String} (h : (m.set now k quote).lookup j = some e) :
    (j = k ∧ e = ⟨quote, now + DEFAULT_TTL_MS⟩) ∨ m.lookup j = some e := by
  by_cases hj : j = k
  · subst hj
    rw [Entries.set, OrderedMap.lookup_set_self] at h
    exact .inl ⟨rfl, (Option.some.inj h).symm⟩
  · rw [Entries.set, OrderedMap.lookup_set_of_ne hj] at h
    split at h
    · exact .inr (within_evictOldest j e h)
    · exact .inr h

/-- What is in the cache afterwards was there, or is one of the quotes. -/
theorem lookup_setMany {providerId : String} {quotes : OrderedMap String Quote} {j : String}
    (h : (m.setMany now providerId quotes).lookup j = some e) :
    (∃ ref quote, (ref, quote) ∈ quotes.entries ∧ j = key providerId ref ∧
      e = ⟨quote, now + DEFAULT_TTL_MS⟩) ∨ m.lookup j = some e := by
  unfold Entries.setMany at h
  generalize quotes.entries = qs at h ⊢
  induction qs generalizing m with
  | nil => exact .inr h
  | cons q qs ih =>
    rcases ih h with ⟨ref, quote, hmem, hrest⟩ | hset
    · exact .inl ⟨ref, quote, List.mem_cons_of_mem _ hmem, hrest⟩
    · rcases lookup_set hset with ⟨hj, he⟩ | hlookup
      · exact .inl ⟨q.1, q.2, List.mem_cons_self, hj, he⟩
      · exact .inr hlookup

/-! ## Room -/

theorem size_evictOldest (h : MAX_ENTRIES ≤ m.size) : m.evictOldest.size < m.size := by
  obtain ⟨entries, hnodup⟩ := m
  cases entries with
  | nil => simp [OrderedMap.size, MAX_ENTRIES] at h
  | cons x xs =>
    obtain ⟨oldest, e⟩ := x
    exact OrderedMap.size_delete_of_some (OrderedMap.lookup_eq_some.mpr List.mem_cons_self)

theorem size_set (h : m.size ≤ MAX_ENTRIES) : (m.set now k quote).size ≤ MAX_ENTRIES := by
  unfold Entries.set
  split
  · rename_i hfull
    have hroom := size_evictOldest hfull
    exact OrderedMap.size_set_le.trans (hroom.trans_le h)
  · rename_i hroom
    exact OrderedMap.size_set_le.trans (not_le.mp hroom)

theorem size_setMany {providerId : String} {quotes : OrderedMap String Quote}
    (h : m.size ≤ MAX_ENTRIES) : (m.setMany now providerId quotes).size ≤ MAX_ENTRIES := by
  unfold Entries.setMany
  induction quotes.entries generalizing m with
  | nil => exact h
  | cons q qs ih => exact ih (size_set h)

/-! ## Reading -/

theorem within_get (now : Nat) (m : Entries Quote) (k : String) : Within (m.get now k).2 m := by
  unfold Entries.get
  split
  · exact .refl
  · split
    · exact within_delete
    · exact .refl

theorem size_get (now : Nat) (m : Entries Quote) (k : String) : (m.get now k).2.size ≤ m.size := by
  unfold Entries.get
  split
  · exact le_rfl
  · split
    · exact OrderedMap.size_filter_le _
    · exact le_rfl

/-- A quote that is read has not expired. -/
theorem get_some (h : (m.get now k).1 = some quote) :
    ∃ e, m.lookup k = some e ∧ now < e.expiresAt ∧ e.quote = quote := by
  unfold Entries.get at h
  split at h
  · cases h
  · rename_i hit hlookup
    split at h
    · cases h
    · rename_i hlive
      exact ⟨hit, hlookup, not_le.mp hlive, Option.some.inj h⟩

/-- What a partition of `m` says so far, after some of the references. -/
structure Partition.Of (now : Nat) (m : Entries Quote) (providerId : String)
    (refs : List String) (p : Partition Quote) : Prop where
  within : Within p.entries m
  size : p.entries.size ≤ m.size
  hits : ∀ ref quote, p.hits.lookup ref = some quote → ref ∈ refs ∧
    ∃ e, m.lookup (key providerId ref) = some e ∧ now < e.expiresAt ∧ e.quote = quote
  misses : p.misses ⊆ refs
  covered : ∀ ref ∈ refs, ref ∈ p.misses ∨ (p.hits.lookup ref).isSome

variable {providerId : String} {refs : List String}

theorem Partition.Of.read {p : Partition Quote} (h : p.Of now m providerId refs) (ref : String) :
    (p.read now providerId ref).Of now m providerId (refs ++ [ref]) := by
  have hwithin := within_get now p.entries (key providerId ref)
  have hsize := size_get now p.entries (key providerId ref)
  have hold : ∀ r quote, p.hits.lookup r = some quote → r ∈ refs ++ [ref] ∧
      ∃ e, m.lookup (key providerId r) = some e ∧ now < e.expiresAt ∧ e.quote = quote :=
    fun r quote hr => ⟨List.mem_append_left _ (h.hits r quote hr).1, (h.hits r quote hr).2⟩
  unfold Partition.read
  split
  · rename_i hit entries hget
    rw [hget] at hwithin hsize
    refine ⟨hwithin.trans h.within, hsize.trans h.size, fun r quote hr => ?_,
      fun r hr => List.mem_append_left _ (h.misses hr), fun r hr => ?_⟩
    · by_cases hne : r = ref
      · subst hne
        rw [OrderedMap.lookup_set_self] at hr
        obtain ⟨e, hlookup, hlive, hquote⟩ := get_some (congrArg Prod.fst hget)
        exact ⟨by simp, e, h.within _ _ hlookup, hlive, hquote.trans (Option.some.inj hr)⟩
      · rw [OrderedMap.lookup_set_of_ne hne] at hr
        exact hold r quote hr
    · by_cases hne : r = ref
      · simp [hne]
      · rw [OrderedMap.lookup_set_of_ne hne]
        exact h.covered r (by simpa [hne] using hr)
  · rename_i entries hget
    rw [hget] at hwithin hsize
    refine ⟨hwithin.trans h.within, hsize.trans h.size, hold, fun r hr => ?_, fun r hr => ?_⟩
    · rcases List.mem_append.mp hr with hr | hr
      · exact List.mem_append_left _ (h.misses hr)
      · exact List.mem_append_right _ hr
    · rcases List.mem_append.mp hr with hr | hr
      · exact (h.covered r hr).imp_left (List.mem_append_left _)
      · exact .inl (List.mem_append_right _ hr)

theorem partition_of (now : Nat) (m : Entries Quote) (providerId : String) (refs : List String) :
    (partition now m providerId refs).Of now m providerId refs := by
  have hfold : ∀ (done rest : List String) (p : Partition Quote), p.Of now m providerId done →
      (rest.foldl (Partition.read now providerId) p).Of now m providerId (done ++ rest) := by
    intro done rest
    induction rest generalizing done with
    | nil => intro p hp; simpa using hp
    | cons r rest ih =>
      intro p hp
      have hnext := ih (done ++ [r]) (p.read now providerId r) (hp.read r)
      simpa using hnext
  refine hfold [] refs { entries := m } ⟨.refl, le_rfl, ?_, List.nil_subset _, ?_⟩
  · simp
  · simp

end QuoteCache

end Pwos
