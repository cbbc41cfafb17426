import Pwos.Lib.CodeUnits
import Pwos.Lib.OrderedMap
import Pwos.Lib.Precedence

/-!
# The tables of a backup

`features/backup/tables.ts`: the tables of the schema, each with the tables it references, and
the order in which a restore inserts them.
-/

namespace Pwos

structure TableInfo where
  name : String
  /-- Tables this one references through a foreign key (itself excluded). -/
  deps : List String
  deriving DecidableEq, Repr

/-- The tables of the schema by name, in the order of the schema. -/
abbrev Tables := OrderedMap String TableInfo

/-- A table as the schema has it, with the tables its foreign keys reference. -/
structure PgTable where
  name : String
  foreignTables : List String
  deriving DecidableEq, Repr

def PgTable.info (config : PgTable) : TableInfo where
  name := config.name
  deps := sortTexts (config.foreignTables.filter (· ≠ config.name)).dedup

def readSchema (schema : List PgTable) : Tables :=
  schema.foldl (fun out config => out.set config.name config.info) .empty

namespace Tables

def names (tables : Tables) : List String := tables.entries.map Prod.fst

def deps (tables : Tables) (name : String) : List String :=
  (tables.lookup name).elim [] TableInfo.deps

/-- The tables of the next round, by name. -/
def ready (tables : Tables) (placed remaining : List String) : List String :=
  sortTexts <| remaining.filter fun name =>
    (tables.deps name).all fun dep => dep ∈ placed || !(tables.lookup dep).isSome

/-- What is left of `remaining` after a round. -/
def later (remaining layer : List String) : List String := remaining.filter (· ∉ layer)

end Tables

theorem Tables.mem_ready {tables : Tables} {placed remaining : List String} {name : String} :
    name ∈ tables.ready placed remaining ↔ name ∈ remaining ∧
      ∀ dep ∈ tables.deps name, dep ∈ placed ∨ tables.lookup dep = none := by
  simp [Tables.ready]

theorem deps_set (out : Tables) (config : PgTable) (name : String) :
    Tables.deps (out.set config.name config.info) name =
      if name = config.name then config.info.deps else out.deps name := by
  unfold Tables.deps
  split
  · rename_i h
    rw [h, OrderedMap.lookup_set_self]
    rfl
  · rename_i h
    rw [OrderedMap.lookup_set_of_ne h]

/-- No table of the schema waits for itself. -/
theorem readSchema_deps_ne (schema : List PgTable) (name : String) :
    ∀ dep ∈ (readSchema schema).deps name, dep ≠ name := by
  have hfold : ∀ out : Tables, (∀ name, ∀ dep ∈ out.deps name, dep ≠ name) → ∀ name,
      ∀ dep ∈ Tables.deps (schema.foldl (fun out config => out.set config.name config.info) out)
        name, dep ≠ name := by
    induction schema with
    | nil => exact fun out hout => hout
    | cons config schema ih =>
      intro out hout
      apply ih (out.set config.name config.info)
      intro name dep hdep
      rw [deps_set] at hdep
      split at hdep
      · rename_i hname
        simp only [PgTable.info, mem_sortTexts, List.mem_dedup, List.mem_filter,
          decide_eq_true_eq] at hdep
        exact hname ▸ hdep.2
      · exact hout name dep hdep
  exact hfold .empty (fun _ _ hdep => absurd hdep List.not_mem_nil) name

/-- The rounds of the loop. What is placed is what is ordered, as a set. -/
def orderRounds (tables : Tables) (ordered placed remaining : List String) :
    Except String (List String) :=
  if remaining.isEmpty then .ok ordered
  else
    let layer := tables.ready placed remaining
    if layer.isEmpty then
      .error ("Foreign-key cycle between: " ++ ", ".intercalate (sortTexts remaining))
    else
      orderRounds tables (ordered ++ layer) (placed ++ layer) (Tables.later remaining layer)
termination_by remaining.length
decreasing_by
  rename_i hlayer
  obtain ⟨first, hfirst⟩ := List.exists_mem_of_ne_nil _ (mt List.isEmpty_iff.mpr hlayer)
  apply List.length_filter_lt_length_iff_exists.mpr
  exact ⟨first, (Tables.mem_ready.mp hfirst).1, by simpa using hfirst⟩

/-- Parents before children; ties broken by name so the order is stable. -/
def dependencyOrder (tables : Tables) : Except String (List String) :=
  orderRounds tables [] [] tables.names

section Order
variable {tables tables' : Tables} {ordered placed remaining order : List String}
  {name dep message : String}

/-- The table references the other one, which is there. -/
def Tables.DependsOn (tables : Tables) (name dep : String) : Prop :=
  dep ∈ tables.deps name ∧ dep ∈ tables.names

theorem Tables.lookup_none_iff : tables.lookup dep = none ↔ dep ∉ tables.names :=
  OrderedMap.lookup_eq_none

theorem Tables.mem_names_of_deps (h : dep ∈ tables.deps name) : name ∈ tables.names := by
  by_contra hnone
  rw [Tables.deps, Tables.lookup_none_iff.mpr hnone] at h
  cases h

/-- What holds before each round. -/
structure Laid (tables : Tables) (ordered placed remaining : List String) : Prop where
  placed : placed = ordered
  perm : (ordered ++ remaining).Perm tables.names
  needsFirst : NeedsFirst tables.DependsOn ordered

theorem laid_start (tables : Tables) : Laid tables [] [] tables.names :=
  ⟨rfl, .refl _, .nil⟩

/-- A round splits what remains. -/
theorem ready_append_later (tables : Tables) (placed remaining : List String) :
    (tables.ready placed remaining ++
      Tables.later remaining (tables.ready placed remaining)).Perm remaining := by
  set p := fun name : String =>
    (tables.deps name).all fun dep => dep ∈ placed || !(tables.lookup dep).isSome with hp
  have hready : (tables.ready placed remaining).Perm (remaining.filter p) := perm_sortTexts _
  have hlater : Tables.later remaining (tables.ready placed remaining) =
      remaining.filter fun name => !p name := by
    apply List.filter_congr
    intro name hname
    grind
  rw [hlater]
  exact (hready.append_right _).trans (List.filter_append_perm p remaining)

theorem Laid.round (h : Laid tables ordered placed remaining) :
    Laid tables (ordered ++ tables.ready placed remaining)
      (placed ++ tables.ready placed remaining)
      (Tables.later remaining (tables.ready placed remaining)) := by
  refine ⟨by rw [h.placed], ?_, ?_⟩
  · rw [List.append_assoc]
    exact ((ready_append_later tables placed remaining).append_left ordered).trans h.perm
  · apply h.needsFirst.append
    rintro name hname dep ⟨hdep, hthere⟩
    rcases (Tables.mem_ready.mp hname).2 dep hdep with hplaced | hnone
    · exact h.placed ▸ hplaced
    · exact absurd hthere (Tables.lookup_none_iff.mp hnone)

/-- A round without tables: each that remains needs another that remains. -/
theorem Laid.cycle (h : Laid tables ordered placed remaining) (hne : remaining ≠ [])
    (hready : tables.ready placed remaining = []) :
    ∃ name, Relation.TransGen tables.DependsOn name name := by
  apply exists_cycle hne
  intro name hname
  have hnot : name ∉ tables.ready placed remaining := by simp [hready]
  rw [Tables.mem_ready] at hnot
  push Not at hnot
  obtain ⟨dep, hdep, hplaced, hthere⟩ := hnot hname
  have hmem : dep ∈ tables.names := by
    by_contra hnone
    exact hthere (Tables.lookup_none_iff.mpr hnone)
  rcases List.mem_append.mp (h.perm.mem_iff.mpr hmem) with hordered | hremaining
  · exact absurd (h.placed ▸ hordered) hplaced
  · exact ⟨dep, hremaining, hdep, hmem⟩

theorem Laid.ok (h : Laid tables ordered placed remaining)
    (hrun : orderRounds tables ordered placed remaining = .ok order) :
    order.Perm tables.names ∧ NeedsFirst tables.DependsOn order := by
  fun_induction orderRounds tables ordered placed remaining with
  | case1 ordered placed remaining hempty =>
    obtain rfl := Except.ok.inj hrun
    obtain rfl := List.isEmpty_iff.mp hempty
    exact ⟨by simpa using h.perm, h.needsFirst⟩
  | case2 => cases hrun
  | case3 ordered placed remaining hmore layer hlayer ih => exact ih h.round hrun

theorem Laid.error (h : Laid tables ordered placed remaining)
    (hrun : orderRounds tables ordered placed remaining = .error message) :
    ∃ name, Relation.TransGen tables.DependsOn name name := by
  fun_induction orderRounds tables ordered placed remaining with
  | case1 => cases hrun
  | case2 ordered placed remaining hmore layer hlayer =>
    exact h.cycle (mt List.isEmpty_iff.mpr hmore) (List.isEmpty_iff.mp hlayer)
  | case3 ordered placed remaining hmore layer hlayer ih => exact ih h.round hrun

theorem dependencyOrder_error_iff : (∃ message, dependencyOrder tables = .error message) ↔
    ∃ name, Relation.TransGen tables.DependsOn name name := by
  constructor
  · rintro ⟨message, hrun⟩
    exact (laid_start tables).error hrun
  · rintro ⟨name, hcycle⟩
    cases hrun : dependencyOrder tables with
    | error message => exact ⟨message, rfl⟩
    | ok order =>
      obtain ⟨hperm, hfirst⟩ := (laid_start tables).ok hrun
      refine absurd hcycle (hfirst.acyclic ?_ name)
      intro name dep h
      exact hperm.mem_iff.mpr (Tables.mem_names_of_deps h.1)

/-- The same tables with the same dependencies, in any order. -/
structure SamePairs (tables tables' : Tables) : Prop where
  names : ∀ name, name ∈ tables.names ↔ name ∈ tables'.names
  deps : ∀ name dep, dep ∈ tables.deps name ↔ dep ∈ tables'.deps name

theorem SamePairs.ready (h : SamePairs tables tables') {remaining' : List String}
    (hperm : remaining.Perm remaining') :
    tables.ready placed remaining = tables'.ready placed remaining' := by
  have hlookup : ∀ dep, (tables.lookup dep).isSome = (tables'.lookup dep).isSome := by
    intro dep
    have hnone : tables.lookup dep = none ↔ tables'.lookup dep = none := by
      rw [Tables.lookup_none_iff, Tables.lookup_none_iff, h.names]
    cases hl : tables.lookup dep <;> cases hr : tables'.lookup dep <;> simp_all
  have hfilter : (fun name : String => (tables.deps name).all fun dep =>
      dep ∈ placed || !(tables.lookup dep).isSome) = fun name => (tables'.deps name).all fun dep =>
        dep ∈ placed || !(tables'.lookup dep).isSome := by
    funext name
    rw [Bool.eq_iff_iff, List.all_eq_true, List.all_eq_true]
    simp only [h.deps, hlookup]
  unfold Tables.ready
  rw [hfilter]
  exact sortTexts_congr (hperm.filter _)

theorem SamePairs.orderRounds (h : SamePairs tables tables') : ∀ remaining' : List String,
    remaining.Perm remaining' → orderRounds tables ordered placed remaining =
      Pwos.orderRounds tables' ordered placed remaining' := by
  fun_induction Pwos.orderRounds tables ordered placed remaining with
  | case1 ordered placed remaining hempty =>
    intro remaining' hperm
    have hempty' : remaining'.isEmpty := by rwa [← hperm.isEmpty_eq]
    rw [Pwos.orderRounds.eq_def, if_pos hempty']
  | case2 ordered placed remaining hmore layer hlayer =>
    intro remaining' hperm
    have hmore' : ¬ remaining'.isEmpty := by rwa [← hperm.isEmpty_eq]
    have hready : layer = tables'.ready placed remaining' := h.ready hperm
    rw [Pwos.orderRounds.eq_def, if_neg hmore', ← hready, if_pos hlayer, sortTexts_congr hperm]
  | case3 ordered placed remaining hmore layer hlayer ih =>
    intro remaining' hperm
    have hmore' : ¬ remaining'.isEmpty := by rwa [← hperm.isEmpty_eq]
    have hready : layer = tables'.ready placed remaining' := h.ready hperm
    rw [Pwos.orderRounds.eq_def tables', if_neg hmore', ← hready, if_neg hlayer]
    exact ih _ (hperm.filter _)

/-- The order of a map of tables: all of them, each after its parents, and the same however the
map came to be; a cycle of references is the one thing that gives none. -/
theorem dependencyOrder_spec (tables : Tables) :
    (∀ order, dependencyOrder tables = .ok order →
      order.Perm tables.names ∧
      ∀ placed name rest, order = placed ++ name :: rest →
        ∀ dep ∈ tables.deps name, dep ∈ tables.names → dep ∈ placed) ∧
    (∀ tables', SamePairs tables tables' → dependencyOrder tables = dependencyOrder tables') ∧
    ((∃ message, dependencyOrder tables = .error message) ↔
      ∃ name, Relation.TransGen
        (fun name dep => dep ∈ tables.deps name ∧ dep ∈ tables.names) name name) := by
  refine ⟨fun order hrun => ?_, fun tables' h => ?_, dependencyOrder_error_iff⟩
  · obtain ⟨hperm, hfirst⟩ := (laid_start tables).ok hrun
    refine ⟨hperm, ?_⟩
    intro placed name rest horder dep hdep hthere
    exact hfirst placed name rest horder dep ⟨hdep, hthere⟩
  · apply h.orderRounds tables'.names
    exact (List.perm_ext_iff_of_nodup tables.nodup tables'.nodup).mpr h.names

end Order

example : dependencyOrder (readSchema [⟨"postings", ["accounts", "journal_entries"]⟩,
    ⟨"accounts", ["accounts", "users"]⟩, ⟨"users", []⟩, ⟨"journal_entries", ["users"]⟩]) =
      .ok ["users", "accounts", "journal_entries", "postings"] := by
  decide +kernel

end Pwos
