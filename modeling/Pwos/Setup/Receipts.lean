import Pwos.Setup.Registered

/-!
# Receipts

What the workflow keeps: the vehicles, properties and debts that are registered are those of the
receipts, each once, and the books of a user were opened once if his row says so, else never. A row
changes under the token of its lease alone (`workflowPromise`), so a run that still finds its token
there has the last progress in memory.
-/

namespace Pwos

def SetupProgress.receipts (p : SetupProgress) (kind : ItemKind) : List Uuid :=
  (p.items.entries.filter (·.1.kind = kind)).map (·.2.id)

def SetupWorld.receipts (w : SetupWorld) (kind : ItemKind) : List Uuid :=
  w.sessions.flatMap (·.progress.receipts kind)

/-- The row of the user says that his books are open. -/
def SetupWorld.opened (w : SetupWorld) (u : Uuid) : Bool :=
  w.sessions.any fun s => s.userId = u && s.progress.base.isSome

def Db.setups (db : Db) (u : Uuid) : List UserSetupState :=
  db.userSetupState.filter (·.userId = u)

structure SetupWorld.Receipted (w : SetupWorld) : Prop where
  users : (w.sessions.map (·.userId)).Nodup
  tokens : ∀ s ∈ w.sessions, ∀ i ∈ s.leaseToken, i ∈ w.tokens
  registered : ∀ kind, (w.db.registered kind).Perm (w.receipts kind)
  opened : ∀ u, (w.db.setups u).length = if w.opened u then 1 else 0
  done : ∀ s ∈ w.sessions, s.progress.done = true →
    w.db.setupCompleted s.userId ∧ s.draft = none

/-- What a run that holds the token `o` and the rows `ks` relies on: locked rows stay, nobody else
writes under its token, and a progress that is done is the last. -/
structure SessionsKept (o : Option Uuid) (ks : List SetupRow) (w v : SetupWorld) : Prop where
  rows : ∀ u, SetupRow.session u ∈ ks → ∀ s : SetupSession, s.userId = u →
    (s ∈ v.sessions ↔ s ∈ w.sessions)
  own : ∀ i ∈ o, ∀ s ∈ v.sessions, s.leaseToken = some i →
    ∃ r ∈ w.sessions, r.userId = s.userId ∧ r.leaseToken = some i ∧ r.progress = s.progress
  done : ∀ r ∈ w.sessions, r.progress.done = true →
    ∃ s ∈ v.sessions, s.userId = r.userId ∧ s.progress = r.progress

def workflowPromise : FencedPromise SetupWorld SetupRow SetupAssumption Uuid where
  Assumes := (· = .freshToken)
  Inv := SetupWorld.Receipted
  Taken w i := i ∈ w.tokens
  Rely := SessionsKept
  refl _ _ _ := ⟨fun _ _ _ _ => Iff.rfl, fun _ _ s hs h => ⟨s, hs, rfl, h, rfl⟩,
    fun r hr _ => ⟨r, hr, rfl, rfl⟩⟩
  trans h h' := by
    refine ⟨fun u hu s hs => (h'.rows u hu s hs).trans (h.rows u hu s hs), ?_, ?_⟩
    · intro i hi s hs htoken
      obtain ⟨r, hr, huser, htoken, hprogress⟩ := h'.own i hi s hs htoken
      obtain ⟨q, hq, huser', htoken, hprogress'⟩ := h.own i hi r hr htoken
      exact ⟨q, hq, huser'.trans huser, htoken, hprogress'.trans hprogress⟩
    · intro r hr hdone
      obtain ⟨s, hs, huser, hprogress⟩ := h.done r hr hdone
      obtain ⟨t, ht, huser', hprogress'⟩ := h'.done s hs (hprogress ▸ hdone)
      exact ⟨t, ht, huser'.trans huser, hprogress'.trans hprogress⟩
  mono hsub h := ⟨fun u hu => h.rows u (hsub hu), h.own, h.done⟩

/-! ## The row that is written -/

section Lists
variable {α β κ : Type} [DecidableEq κ] {key : α → κ} {f : α → α} {xs : List α} {x : α}

/-- One element is changed. -/
theorem flatMap_update_perm {g : α → List β} {extra : List β} (h : (xs.map key).Nodup) (hx : x ∈ xs)
    (hg : (g (f x)).Perm (g x ++ extra)) :
    ((xs.map fun y => if key y = key x then f y else y).flatMap g).Perm
      (xs.flatMap g ++ extra) := by
  induction xs with
  | nil => cases hx
  | cons y xs ih =>
    obtain ⟨hy, hxs⟩ := List.nodup_cons.mp h
    rcases List.mem_cons.mp hx with rfl | hx
    · have hrest : (xs.map fun y => if key y = key x then f y else y) = xs := by
        refine (List.map_congr_left fun z hz => if_neg fun hk => hy ?_).trans (List.map_id xs)
        exact List.mem_map.mpr ⟨z, hz, hk⟩
      simp only [List.map_cons, if_true, List.flatMap_cons, hrest]
      refine (hg.append_right _).trans ?_
      rw [List.append_assoc, List.append_assoc]
      exact List.perm_append_comm.append_left _
    · have hne : ¬ key y = key x := fun hk => hy (hk ▸ List.mem_map_of_mem hx)
      simp only [List.map_cons, if_neg hne, List.flatMap_cons, List.append_assoc]
      exact (ih hxs hx).append_left _

end Lists

section Row
variable {w v : SetupWorld} {s : SetupSession} {u : Uuid} {f : SetupSession → SetupSession}

@[simp] theorem setSession_db : (w.setSession u f).db = w.db := rfl
@[simp] theorem setSession_tokens : (w.setSession u f).tokens = w.tokens := rfl
@[simp] theorem setSession_now : (w.setSession u f).now = w.now := rfl

/-- Pending writes of the books. -/
theorem applyAll_db (us : List Write) (w : SetupWorld) :
    applyAll (us.map SetupWrite.db) w = { w with db := applyAll us w.db } := by
  induction us generalizing w with
  | nil => rfl
  | cons u us ih => exact ih _

theorem holds_iff {token : Uuid} : w.holds u token = true ↔
    ∃ s ∈ w.sessions, s.userId = u ∧ s.leaseToken = some token := by
  simp [SetupWorld.holds]

theorem receipts_set {p : SetupProgress} {k : ItemKey} {r : Receipt}
    (h : p.items.lookup k = none) (kind : ItemKind) :
    SetupProgress.receipts { p with items := p.items.set k r } kind =
      p.receipts kind ++ onlyItem k.kind r.id kind := by
  have hk := OrderedMap.lookup_eq_none.mp h
  simp only [SetupProgress.receipts, OrderedMap.set, dif_neg hk, OrderedMap.append,
    List.filter_append, List.map_append, onlyItem]
  by_cases hkind : k.kind = kind
  · simp [hkind]
  · simp [hkind, Ne.symm hkind]

theorem SetupWorld.Receipted.opened_row (hw : w.Receipted) (hs : s ∈ w.sessions) :
    w.opened s.userId = s.progress.base.isSome := by
  rw [Bool.eq_iff_iff]
  simp only [SetupWorld.opened, List.any_eq_true]
  constructor
  · rintro ⟨r, hr, hbase⟩
    simp only [Bool.and_eq_true, decide_eq_true_eq] at hbase
    rw [← List.inj_on_of_nodup_map hw.users hr hs hbase.1]
    exact hbase.2
  · exact fun hbase => ⟨s, hs, by simp [hbase]⟩

/-- What an update of the row of a user does to the whole. -/
structure Rewrites (s : SetupSession) (f : SetupSession → SetupSession)
    (made : ItemKind → List Uuid) (w v : SetupWorld) : Prop where
  mem : s ∈ w.sessions
  sessions : v.sessions = w.sessions.map fun r => if r.userId = s.userId then f r else r
  user : ∀ r, (f r).userId = r.userId
  tokens : w.tokens ⊆ v.tokens
  receipts : ∀ kind, ((f s).progress.receipts kind).Perm (s.progress.receipts kind ++ made kind)

namespace Rewrites
variable {made : ItemKind → List Uuid}

theorem mem_iff (h : Rewrites s f made w v) (hw : w.Receipted) {r : SetupSession} :
    r ∈ v.sessions ↔ r = f s ∨ (r ∈ w.sessions ∧ r.userId ≠ s.userId) := by
  rw [h.sessions, List.mem_map]
  constructor
  · rintro ⟨q, hq, rfl⟩
    split
    · rename_i hqs
      exact .inl (by rw [List.inj_on_of_nodup_map hw.users hq h.mem hqs])
    · rename_i hqs
      exact .inr ⟨hq, hqs⟩
  · rintro (rfl | ⟨hr, hrs⟩)
    · exact ⟨s, h.mem, if_pos rfl⟩
    · exact ⟨r, hr, if_neg hrs⟩

theorem opened_self (h : Rewrites s f made w v) (hw : w.Receipted) :
    v.opened s.userId = (f s).progress.base.isSome := by
  rw [Bool.eq_iff_iff]
  simp only [SetupWorld.opened, List.any_eq_true, h.mem_iff hw]
  have huser := h.user s
  grind

theorem opened_other (h : Rewrites s f made w v) (hw : w.Receipted) {x : Uuid}
    (hx : x ≠ s.userId) : v.opened x = w.opened x := by
  rw [Bool.eq_iff_iff]
  simp only [SetupWorld.opened, List.any_eq_true, h.mem_iff hw]
  have huser := h.user s
  grind

theorem receipted (h : Rewrites s f made w v) (hw : w.Receipted)
    (htoken : ∀ i ∈ (f s).leaseToken, i ∈ v.tokens)
    (hmade : ∀ kind, v.db.registered kind = w.db.registered kind ++ made kind)
    (hself : (v.db.setups s.userId).length = if (f s).progress.base.isSome then 1 else 0)
    (hothers : ∀ x, x ≠ s.userId → (v.db.setups x).length = (w.db.setups x).length)
    (hdone : (f s).progress.done = true → v.db.setupCompleted s.userId ∧ (f s).draft = none)
    (hcompleted : ∀ x, w.db.setupCompleted x → v.db.setupCompleted x) : v.Receipted where
  users := by
    have hmap : v.sessions.map (·.userId) = w.sessions.map (·.userId) := by
      rw [h.sessions, List.map_map]
      refine List.map_congr_left fun r _ => ?_
      simp only [Function.comp_apply]
      split
      · exact h.user r
      · rfl
    exact hmap ▸ hw.users
  tokens r hr i hi := by
    obtain rfl | ⟨hr, -⟩ := (h.mem_iff hw).mp hr
    · exact htoken i hi
    · exact h.tokens (hw.tokens r hr i hi)
  registered kind := by
    rw [hmade]
    refine ((hw.registered kind).append_right _).trans ?_
    unfold SetupWorld.receipts
    rw [h.sessions]
    exact (flatMap_update_perm (g := fun r => r.progress.receipts kind) hw.users h.mem
      (h.receipts kind)).symm
  opened x := by
    by_cases hx : x = s.userId
    · subst hx
      rw [h.opened_self hw, hself]
    · rw [h.opened_other hw hx, hothers x hx, hw.opened]
  done r hr hd := by
    obtain rfl | ⟨hr, -⟩ := (h.mem_iff hw).mp hr
    · rw [h.user]
      exact hdone hd
    · exact ⟨hcompleted _ (hw.done r hr hd).1, (hw.done r hr hd).2⟩

/-- Under a lock on the row, and with no other token than that of the writer left on it, the others
lose nothing they rely on. -/
theorem commits {ws : List SetupWrite} {ks : List SetupRow} {o : Option Uuid}
    (h : Rewrites s f made w (applyAll ws w)) (hw : w.Receipted) (hv : (applyAll ws w).Receipted)
    (hlock : .session s.userId ∈ ks) (hfence : ∀ i, (f s).leaseToken = some i → o = some i)
    (hdone : s.progress.done = true → (f s).progress = s.progress) :
    workflowPromise.Commits o ws ks w where
  inv := hv
  taken i hi := h.tokens hi
  rely o' others ho hothers := by
    refine ⟨fun x hx r hr => ?_, fun i hi r hr htoken => ?_, fun r hr hd => ?_⟩
    · have hne : x ≠ s.userId := by
        rintro rfl
        exact hothers _ hx hlock
      rw [h.mem_iff hw]
      have huser := h.user s
      grind
    · obtain rfl | ⟨hr, -⟩ := (h.mem_iff hw).mp hr
      · exact absurd hi (ho i (hfence i htoken))
      · exact ⟨r, hr, rfl, htoken, rfl⟩
    · by_cases hrs : r.userId = s.userId
      · obtain rfl := List.inj_on_of_nodup_map hw.users hr h.mem hrs
        exact ⟨f r, (h.mem_iff hw).mpr (.inl rfl), h.user r, hdone hd⟩
      · exact ⟨r, (h.mem_iff hw).mpr (.inr ⟨hr, hrs⟩), rfl, rfl⟩

/-- An update that leaves the progress alone. -/
theorem commits_aside {ws : List SetupWrite} {ks : List SetupRow} {o : Option Uuid}
    (h : Rewrites s f noItem w (applyAll ws w)) (hw : w.Receipted)
    (hdb : (applyAll ws w).db = w.db) (hprogress : (f s).progress = s.progress)
    (htoken : ∀ i, (f s).leaseToken = some i → i ∈ (applyAll ws w).tokens ∧ o = some i)
    (hdraft : s.progress.done = true → (f s).draft = none) (hlock : .session s.userId ∈ ks) :
    workflowPromise.Commits o ws ks w := by
  refine h.commits hw (h.receipted hw (fun i hi => (htoken i hi).1) ?_ ?_ ?_ ?_ ?_) hlock
    (fun i hi => (htoken i hi).2) fun _ => hprogress
  · simp [hdb, noItem]
  · rw [hdb, hw.opened, hw.opened_row h.mem, hprogress]
  · simp [hdb]
  · rw [hprogress, hdb]
    exact fun hd => ⟨(hw.done s h.mem hd).1, hdraft hd⟩
  · simp [hdb]

end Rewrites

end Row

end Pwos
