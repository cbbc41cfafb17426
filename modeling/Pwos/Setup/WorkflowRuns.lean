import Pwos.Setup.Receipts

/-!
# Runs of the workflow

Any number of runs of `finishSetup` and of saved drafts, for any users, interleaved statement by
statement, each of which may crash at any point. As long as no token is drawn twice, every vehicle,
property and debt that is registered has one receipt, the books of a user are opened once, and what
a run that finished was given is all there (`setups_receipted`).
-/

namespace Pwos

section Rules
variable {u token : Uuid} {p : SetupProgress} {w v : SetupWorld} {ks : List SetupRow}
  {s : SetupSession}

/-! ## What a run knows -/

/-- Whatever row has the token is that of the user, with this progress. A progress that is done
stays. -/
structure Leased (token u : Uuid) (p : SetupProgress) (w : SetupWorld) : Prop where
  knows : ∀ s ∈ w.sessions, s.leaseToken = some token → s.userId = u ∧ s.progress = p
  done : p.done = true → ∃ s ∈ w.sessions, s.userId = u ∧ s.progress = p

/-- The row of the user is under the token, and as it was left. -/
structure UnderLease (token u : Uuid) (p : SetupProgress) (s : SetupSession) (w : SetupWorld) :
    Prop where
  mem : s ∈ w.sessions
  user : s.userId = u
  lease : s.leaseToken = some token
  progress : s.progress = p

theorem Leased.stable (h : Leased token u p w) (hr : SessionsKept (some token) ks w v) :
    Leased token u p v where
  knows s hs htoken := by
    obtain ⟨r, hr, huser, htoken, hprogress⟩ := hr.own token rfl s hs htoken
    obtain ⟨h₁, h₂⟩ := h.knows r hr htoken
    exact ⟨huser.symm.trans h₁, hprogress.symm.trans h₂⟩
  done hd := by
    obtain ⟨r, hmem, huser, rfl⟩ := h.done hd
    obtain ⟨s, hs, huser', hprogress⟩ := hr.done r hmem hd
    exact ⟨s, hs, huser'.trans huser, hprogress⟩

theorem UnderLease.stable (h : UnderLease token u p s w) (hlock : .session u ∈ ks)
    (hr : SessionsKept (some token) ks w v) : UnderLease token u p s v where
  mem := (hr.rows u hlock s h.user).mpr h.mem
  user := h.user
  lease := h.lease
  progress := h.progress

theorem Leased.holding (h : Leased token u p w) (hholds : w.holds u token = true) :
    ∃ s, UnderLease token u p s w := by
  obtain ⟨s, hs, huser, htoken⟩ := holds_iff.mp hholds
  exact ⟨s, hs, huser, htoken, (h.knows s hs htoken).2⟩

/-- After the row was written. -/
theorem Rewrites.leased {f : SetupSession → SetupSession} {made : ItemKind → List Uuid}
    (h : Rewrites s f made w v) (hw : w.Receipted) (hl : Leased token s.userId p w) :
    Leased token s.userId (f s).progress v where
  knows r hr htoken := by
    obtain rfl | ⟨hr, hne⟩ := (h.mem_iff hw).mp hr
    · exact ⟨h.user s, rfl⟩
    · exact absurd (hl.knows r hr htoken).1 hne
  done _ := ⟨f s, (h.mem_iff hw).mpr (.inl rfl), h.user s, rfl⟩

/-! ## Single statements -/

section Statements
variable {α β : Type} {o : Option Uuid} {ws : List SetupWrite}

/-- A row for a user who has none. -/
theorem commits_insertSession {row : SetupSession} (hw : w.Receipted)
    (hnew : ∀ s ∈ w.sessions, s.userId ≠ row.userId) (hrow : row.progress = {})
    (hfree : row.leaseToken = none) :
    workflowPromise.Commits o [.insertSession row] [.session row.userId] w where
  inv := by
    have hreceipts : ∀ kind, row.progress.receipts kind = [] := by
      intro kind
      rw [hrow]
      rfl
    refine ⟨?_, fun s hs i hi => ?_, fun kind => ?_, fun x => ?_, fun s hs hd => ?_⟩
    · have hdisjoint : row.userId ∉ w.sessions.map (·.userId) := by
        rintro hin
        obtain ⟨s, hs, huser⟩ := List.mem_map.mp hin
        exact hnew s hs huser
      simp only [applyAll_cons, applyAll_nil, Writable.apply, SetupWrite.apply, List.map_append,
        List.map_cons, List.map_nil]
      exact List.nodup_append'.mpr ⟨hw.users, List.nodup_singleton _, by simpa using hdisjoint⟩
    · rcases List.mem_append.mp hs with hs | hs
      · exact hw.tokens s hs i hi
      · rw [List.mem_singleton.mp hs, hfree] at hi
        cases hi
    · simpa [SetupWorld.receipts, Writable.apply, SetupWrite.apply, hreceipts] using
        hw.registered kind
    · have hsame := hw.opened x
      simpa [SetupWorld.opened, Writable.apply, SetupWrite.apply, hrow] using hsame
    · rcases List.mem_append.mp hs with hs | hs
      · exact hw.done s hs hd
      · rw [List.mem_singleton.mp hs, hrow] at hd
        cases hd
  taken i hi := hi
  rely o' others _ hothers := by
    refine ⟨fun x hx r hr => ?_, fun i _ r hr htoken => ?_, fun r hr _ => ?_⟩
    · have hne : x ≠ row.userId := by
        rintro rfl
        exact hothers _ hx List.mem_cons_self
      have hrow : r ≠ row := by
        rintro rfl
        exact hne hr.symm
      simp [Writable.apply, SetupWrite.apply, hrow]
    · rcases List.mem_append.mp hr with hr | hr
      · exact ⟨r, hr, rfl, htoken, rfl⟩
      · rw [List.mem_singleton.mp hr, hfree] at htoken
        cases htoken
    · exact ⟨r, List.mem_append_left _ hr, rfl, rfl⟩

variable {Q : Unit → Option Uuid → List SetupWrite → List SetupRow → SetupWorld → Prop}

theorem good_ensureSession {row : SetupSession} (hrow : row.progress = {})
    (hfree : row.leaseToken = none) (h : ∀ t, t.Receipted → Q () o ws ks t) :
    workflowPromise.Good Q (ensureSession row) o ws ks w := by
  intro t ht _ _
  refine ⟨o, .inl rfl, ?_, fun v hv _ => h v hv⟩
  cases hfind : t.session row.userId with
  | some s =>
    simp only [hfind]
    exact .nothing ht
  | none =>
    simp only [hfind]
    refine commits_insertSession ht (fun s hs huser => ?_) hrow hfree
    simpa [huser] using List.find?_eq_none.mp hfind s hs

/-- The lease is taken under the new token, or not at all. -/
theorem good_takeLease {rules : FinishRules}
    {R : Option SetupProgress → Option Uuid → List SetupWrite → List SetupRow → SetupWorld → Prop}
    (hnone : ∀ t, t.Receipted → R none none [] [] t)
    (hsome : ∀ p t, t.Receipted → Leased rules.token u p t →
      R (some p) (some rules.token) [] [] t) :
    workflowPromise.Good R (takeLease rules u) none [] [] w := by
  intro t ht _ hfresh
  have hfresh : rules.token ∉ t.tokens := hfresh .freshToken rfl rfl
  cases hlease : (t.session u).filter t.leasable with
  | none =>
    refine ⟨none, .inl rfl, ?_, ?_⟩
    · simp only [hlease]
      exact .nothing ht
    · intro v hv _
      simp only [hlease]
      exact hnone v hv
  | some s =>
    obtain ⟨hfind, -⟩ := Option.filter_eq_some_iff.mp hlease
    have hs : s ∈ t.sessions := List.mem_of_find?_eq_some hfind
    obtain rfl : s.userId = u := by simpa using List.find?_some hfind
    have hrow : Rewrites s
        (fun r => { r with leaseToken := some rules.token
                           leaseUntil := some (t.now + SETUP_LEASE_MS) }) noItem t
        (applyAll [.takeLease s.userId rules.token (t.now + SETUP_LEASE_MS)] t) :=
      ⟨hs, rfl, fun _ => rfl, List.subset_append_left _ _, fun kind => by simp [noItem]⟩
    have hnobody : Leased rules.token s.userId s.progress t :=
      ⟨fun r hr htoken => absurd (ht.tokens r hr _ htoken) hfresh, fun _ => ⟨s, hs, rfl, rfl⟩⟩
    have htokens : rules.token ∈
        (applyAll [SetupWrite.takeLease s.userId rules.token (t.now + SETUP_LEASE_MS)] t).tokens :=
      List.mem_append_right _ List.mem_cons_self
    refine ⟨some rules.token, .inr ⟨rules.token, rfl, hfresh, ?_⟩, ?_, ?_⟩
    · simp only [hlease]
      exact htokens
    · simp only [hlease]
      refine hrow.commits_aside ht rfl rfl (fun i hi => ?_) (fun hd => (ht.done s hs hd).2)
        List.mem_cons_self
      obtain rfl : rules.token = i := Option.some.inj hi
      exact ⟨htokens, rfl⟩
    · simp only [hlease]
      exact fun v hv hr => hsome _ v hv ((hrow.leased ht hnobody).stable hr)

/-- Writing the progress one has read or written last. -/
theorem good_touch {rules : FinishRules}
    {R : Except AppError Unit → Option Uuid → List SetupWrite → List SetupRow → SetupWorld → Prop}
    (hl : Leased rules.token u p w) (herr : ∀ e o ws ks t, R (.error e) o ws ks t)
    (hok : ∀ t, t.Receipted → Leased rules.token u p t → R (.ok ()) (some rules.token) [] [] t) :
    workflowPromise.Good R (.statements (saveProgress rules u p)) (some rules.token) [] [] w := by
  intro t ht hr _
  have hl := hl.stable hr
  cases hholds : t.holds u rules.token with
  | false =>
    refine ⟨_, .inl rfl, ?_, ?_⟩
    · simp only [hholds]
      exact .nothing ht
    · simp only [hholds]
      exact fun _ _ _ => herr _ _ _ _ _
  | true =>
    obtain ⟨s, hs⟩ := hl.holding hholds
    obtain rfl := hs.user
    have hrow : Rewrites s
        (fun r => { r with progress := p, leaseUntil := some (t.now + SETUP_LEASE_MS) }) noItem t
        (applyAll [.setProgress s.userId p (t.now + SETUP_LEASE_MS)] t) :=
      ⟨hs.mem, rfl, fun _ => rfl, List.Subset.refl _, fun kind => by simp [noItem, hs.progress]⟩
    refine ⟨_, .inl rfl, ?_, ?_⟩
    · simp only [hholds]
      refine hrow.commits_aside ht rfl hs.progress.symm (fun i hi => ?_)
        (fun hd => (ht.done s hs.mem hd).2) List.mem_cons_self
      exact ⟨ht.tokens s hs.mem i hi, hs.lease.symm.trans hi⟩
    · simp only [hholds]
      exact fun v hv hr => hok v hv ((hrow.leased ht hl).stable hr)

theorem SessionsKept.unfenced (h : SessionsKept o ks w v) : SessionsKept none ks w v where
  rows := h.rows
  own _ hi := by cases hi
  done := h.done

/-- The lease is given up, if it is still there. -/
theorem good_releaseLease {rules : FinishRules}
    (h : ∀ v, v.Receipted → SessionsKept none [] w v → Q () o ws ks v) :
    workflowPromise.Good Q (releaseLease rules u) o ws ks w := by
  intro t ht hr _
  have hr : SessionsKept none [] w t := (workflowPromise.mono (List.nil_subset ks) hr).unfenced
  have hlater : ∀ {t' v : SetupWorld}, SessionsKept none [] t t' → SessionsKept o ks t' v →
      SessionsKept none [] w v := fun hgiven hv => workflowPromise.trans hr
    (workflowPromise.trans hgiven (workflowPromise.mono (List.nil_subset ks) hv).unfenced)
  cases hholds : t.holds u rules.token with
  | false =>
    refine ⟨o, .inl rfl, ?_, fun v hv hv' => ?_⟩
    · simp only [hholds]
      exact .nothing ht
    · simp only [hholds] at hv'
      exact h v hv (hlater (workflowPromise.refl _ _ _) hv')
  | true =>
    obtain ⟨s, hs, rfl, -⟩ := holds_iff.mp hholds
    have hrow : Rewrites s (fun r => { r with leaseToken := none, leaseUntil := none })
        noItem t (applyAll [.release s.userId] t) :=
      ⟨hs, rfl, fun _ => rfl, List.Subset.refl _, fun kind => by simp [noItem]⟩
    have hcommits : ∀ o', workflowPromise.Commits o' [.release s.userId] [.session s.userId] t :=
      fun _ => hrow.commits_aside ht rfl rfl (fun i hi => by cases hi)
        (fun hd => (ht.done s hs hd).2) List.mem_cons_self
    refine ⟨o, .inl rfl, ?_, fun v hv hv' => ?_⟩
    · simp only [hholds]
      exact hcommits o
    · simp only [hholds] at hv'
      have hgiven := (hcommits none).rely none [] (fun _ h => by cases h) (fun _ hk => by cases hk)
      exact h v hv (hlater hgiven hv')

end Statements

/-! ## Transactions under the lease -/

section Transactions
variable {α : Type} {rules : FinishRules} {p' : SetupProgress} {us : List Write}
  {made : ItemKind → List Uuid} {states : List UserSetupState} {vs : List SetupWrite} {expiry : Nat}
  {R : Except AppError α → Option Uuid → List SetupWrite → List SetupRow → SetupWorld → Prop}

/-- The guarded write, while the writes of the transaction leave the rows alone: either the run is
over, or it goes on with the row locked, as it knows it. -/
theorem good_saveProgress {rest : SetupSql α} (hl : Leased rules.token u p w)
    (hvs : ∀ x : SetupWorld, (applyAll vs x).sessions = x.sessions)
    (herr : ∀ e o ws ks t, R (.error e) o ws ks t)
    (h : ∀ t expiry s, t.Receipted → Leased rules.token u p t → UnderLease rules.token u p s t →
      workflowPromise.Good R (.transaction rest) (some rules.token)
        (vs ++ [.setProgress u p' expiry]) (ks ++ [.session u]) t) :
    workflowPromise.Good R (.transaction (saveProgress rules u p' >>= fun _ => rest))
      (some rules.token) vs ks w := by
  intro t ht hr _
  have hl := hl.stable hr
  have hsame : (applyAll vs t).holds u rules.token = t.holds u rules.token := by
    simp only [SetupWorld.holds, hvs]
  cases hholds : t.holds u rules.token with
  | false =>
    simp only [hsame, hholds]
    exact .fails fun _ _ _ => herr _ _ _ _ _
  | true =>
    obtain ⟨s, hs⟩ := hl.holding hholds
    simp only [hsame, hholds]
    exact h t _ s ht hl hs

theorem applyAll_books (us : List Write) (w : SetupWorld) :
    applyAll (us.map SetupWrite.db ++ [.setProgress u p' expiry]) w =
      { w.setSession u (fun r => { r with progress := p', leaseUntil := some expiry }) with
        db := applyAll us w.db } := by
  rw [applyAll_append, applyAll_db]
  rfl

theorem sessions_books (us : List Write) (w : SetupWorld) :
    (applyAll (us.map books.write) w).sessions = w.sessions := by
  rw [show books.write = SetupWrite.db from rfl, applyAll_db]

/-- What is created in the books, with the progress that says so. -/
theorem commits_books (p' : SetupProgress) (hw : w.Receipted) (hl : Leased rules.token u p w)
    (hs : UnderLease rules.token u p s w)
    (hus : RegistersRows us made states) (hdone : p.done = false) (hdone' : p'.done = false)
    (hreceipts : ∀ kind, (p'.receipts kind).Perm (p.receipts kind ++ made kind))
    (hstates : ∀ x ∈ states, x.userId = u)
    (hopened : (if p.base.isSome then 1 else 0) + states.length = if p'.base.isSome then 1 else 0)
    (hlock : .session u ∈ ks) :
    workflowPromise.Commits (some rules.token) (us.map .db ++ [.setProgress u p' expiry]) ks w ∧
      Leased rules.token u p'
        (applyAll (us.map SetupWrite.db ++ [.setProgress u p' expiry]) w) := by
  obtain rfl := hs.user
  have hrow : Rewrites s (fun r => { r with progress := p', leaseUntil := some expiry }) made w
      (applyAll (us.map SetupWrite.db ++ [.setProgress s.userId p' expiry]) w) := by
    rw [applyAll_books]
    exact ⟨hs.mem, rfl, fun _ => rfl, List.Subset.refl _, fun kind => by
      simpa [hs.progress] using hreceipts kind⟩
  have hsetups : ∀ x, (applyAll us w.db).setups x = w.db.setups x ++
      states.filter (·.userId = x) := by
    intro x
    rw [Db.setups, hus.states, List.filter_append]
    rfl
  refine ⟨hrow.commits hw (hrow.receipted hw ?_ ?_ ?_ ?_ ?_ ?_) hlock
    (fun i hi => hs.lease.symm.trans hi) ?_, hrow.leased hw hl⟩
  all_goals simp only [applyAll_books]
  · exact hw.tokens s hs.mem
  · exact hus.ids w.db
  · rw [hsetups, List.length_append, hw.opened, hw.opened_row hs.mem, hs.progress, ← hopened,
      List.filter_eq_self.mpr (by simpa using hstates)]
  · intro x hx
    rw [hsetups, List.filter_eq_nil_iff.mpr, List.append_nil]
    intro y hy
    simpa [hstates y hy] using Ne.symm hx
  · intro hd
    rw [hdone'] at hd
    cases hd
  · rintro x ⟨y, hy, hcompleted⟩
    refine ⟨y, ?_, hcompleted⟩
    rw [hus.states]
    exact List.mem_append_left _ hy
  · intro hd
    rw [hs.progress, hdone] at hd
    cases hd

theorem completeOf_userId (now : Nat) (x : UserSetupState) :
    (x.completeOf u now).userId = x.userId := by
  unfold UserSetupState.completeOf
  split <;> rfl

theorem rewrites_close (now expiry : Nat) (hs : s ∈ w.sessions)
    (hitems : p'.items = s.progress.items) :
    Rewrites s (fun r => { r with progress := p', leaseUntil := some expiry, draft := none })
      noItem w (applyAll [SetupWrite.completeState s.userId now, .setProgress s.userId p' expiry,
        .setDraft s.userId none] w) where
  mem := hs
  sessions := by
    simp only [applyAll_cons, applyAll_nil, Writable.apply, SetupWrite.apply,
      SetupWorld.setSession, List.map_map]
    refine List.map_congr_left fun r _ => ?_
    simp only [Function.comp_apply]
    split <;> simp_all
  user _ := rfl
  tokens := List.Subset.refl _
  receipts kind := by simp [SetupProgress.receipts, noItem, hitems]

/-- The setup is completed, the progress done, and the draft gone. -/
theorem commits_closeSetup (p' : SetupProgress) {now : Nat} (hw : w.Receipted)
    (hl : Leased rules.token u p w) (hs : UnderLease rules.token u p s w)
    (hdone : p.done = false) (hbase : p.base.isSome = true)
    (hitems : p'.items = p.items) (hbase' : p'.base = p.base) (hlock : .session u ∈ ks) :
    workflowPromise.Commits (some rules.token)
      [.completeState u now, .setProgress u p' expiry, .setDraft u none] ks w ∧
      Leased rules.token u p' (applyAll
        [SetupWrite.completeState u now, .setProgress u p' expiry, .setDraft u none] w) := by
  obtain rfl := hs.user
  have hrow := rewrites_close now expiry hs.mem (hitems.trans (hs.progress ▸ rfl))
  set v := applyAll [SetupWrite.completeState s.userId now, .setProgress s.userId p' expiry,
    .setDraft s.userId none] w
  have hstates : v.db.userSetupState = w.db.userSetupState.map (·.completeOf s.userId now) := rfl
  have hsetups : ∀ x, (v.db.setups x).length = (w.db.setups x).length := by
    intro x
    unfold Db.setups
    rw [hstates, List.filter_map, List.length_map]
    simp [Function.comp_def, completeOf_userId]
  have hone : (w.db.setups s.userId).length = 1 := by
    rw [hw.opened, hw.opened_row hs.mem, hs.progress, hbase, if_pos rfl]
  have hcompleted : v.db.setupCompleted s.userId := by
    obtain ⟨x, hx⟩ := List.length_eq_one_iff.mp hone
    obtain ⟨hmem, huser⟩ := List.mem_filter.mp (hx ▸ List.mem_singleton_self x : x ∈ w.db.setups _)
    have huser : x.userId = s.userId := of_decide_eq_true huser
    refine ⟨x.completeOf s.userId now, hstates ▸ List.mem_map_of_mem hmem,
      (completeOf_userId now x).trans huser, ?_⟩
    simp [UserSetupState.completeOf, huser]
  refine ⟨hrow.commits hw (hrow.receipted hw ?_ (fun kind => ?_) ?_ (fun x _ => hsetups x)
    (fun _ => ⟨hcompleted, rfl⟩) ?_) hlock (fun i hi => hs.lease.symm.trans hi) ?_,
    hrow.leased hw hl⟩
  · exact hw.tokens s hs.mem
  · exact (List.append_nil _).symm
  · rw [hsetups, hone, hbase', hbase, if_pos rfl]
  · rintro x ⟨y, hy, huser, hyes⟩
    refine ⟨y.completeOf s.userId now, hstates ▸ List.mem_map_of_mem hy,
      (completeOf_userId now y).trans huser, ?_⟩
    unfold UserSetupState.completeOf
    split
    · rfl
    · exact hyes
  · intro hd
    rw [hs.progress, hdone] at hd
    cases hd

end Transactions

/-! ## What a run makes of its progress -/

/-- Receipts are kept, and so is what the books were opened with. -/
structure SetupProgress.Extends (p p' : SetupProgress) : Prop where
  base : p'.base = p.base
  done : p'.done = p.done
  items : ∀ k r, p.items.lookup k = some r → p'.items.lookup k = some r

/-- The item has a receipt. -/
def SetupProgress.Has (p : SetupProgress) (item : SetupItem) : Prop :=
  ∃ r, p.items.lookup item.key = some r ∧ r.hash = item.hash

theorem SetupProgress.Extends.refl (p : SetupProgress) : p.Extends p := ⟨rfl, rfl, fun _ _ h => h⟩

theorem SetupProgress.Extends.trans {p p' p'' : SetupProgress} (h : p.Extends p')
    (h' : p'.Extends p'') : p.Extends p'' :=
  ⟨h'.base.trans h.base, h'.done.trans h.done, fun k r hr => h'.items k r (h.items k r hr)⟩

theorem SetupProgress.Extends.has {p p' : SetupProgress} (h : p.Extends p') {item : SetupItem}
    (hp : p.Has item) : p'.Has item := by
  obtain ⟨r, hr, hash⟩ := hp
  exact ⟨r, h.items _ _ hr, hash⟩

/-- The process gives a progress of this kind, under its lease, or an error. -/
def Gives (rules : FinishRules) (u : Uuid) (G : SetupProgress → Prop)
    (r : Except AppError SetupProgress) (o : Option Uuid) (ws : List SetupWrite)
    (ks : List SetupRow) (w : SetupWorld) : Prop :=
  ∀ p, r = .ok p → o = some rules.token ∧ ws = [] ∧ ks = [] ∧ Leased rules.token u p w ∧ G p

section Progress
variable {rules : FinishRules} {input : FinishInput} {G : SetupProgress → Prop}

theorem gives_error {e : AppError} {o : Option Uuid} {ws : List SetupWrite} {ks : List SetupRow}
    {w : SetupWorld} : Gives rules u G (.error e) o ws ks w := fun _ h => by cases h

theorem gives_ok (hl : Leased rules.token u p w) (h : G p) :
    Gives rules u G (.ok p) (some rules.token) [] [] w := by
  rintro _ ⟨⟩
  exact ⟨rfl, rfl, rfl, hl, h⟩

theorem good_ok (hl : Leased rules.token u p w) (h : G p) :
    workflowPromise.Good (Gives rules u G) (pure (.ok p)) (some rules.token) [] [] w :=
  .pure fun _ _ hr => gives_ok (hl.stable hr) h

theorem good_error {e : AppError} {o : Option Uuid} {ws : List SetupWrite} :
    workflowPromise.Good (Gives rules u G) (pure (.error e)) o ws ks w :=
  .pure fun _ _ _ => gives_error

/-- The item and its receipt, in one transaction. -/
theorem good_createItem {item : SetupItem} {id : Uuid}
    (hitem : Enters (onlyItem item.key.kind id) [] (· = id) item.create)
    (hl : Leased rules.token u p w) (hdone : p.done = false)
    (hnew : p.items.lookup item.key = none) :
    workflowPromise.Good (Gives rules u fun p' => p.Extends p' ∧ p'.Has item)
      (.transaction (createItem rules u item p)) (some rules.token) [] [] w := by
  refine .yields (Tx.Yields.within hitem) (fun _ _ _ _ => gives_error) ?_
  rintro _ vs js t ⟨us, is, rfl, rfl, rfl, hus⟩ _ hr
  refine good_saveProgress (hl.stable hr) (sessions_books us) (fun _ _ _ _ _ => gives_error) ?_
  intro t expiry s _ hl hs v hv hvr
  have hlock : SetupRow.session u ∈ is.map books.row ++ [.session u] :=
    List.mem_append_right _ List.mem_cons_self
  obtain ⟨hcommits, hleased⟩ := commits_books
    { p with items := p.items.set item.key ⟨_, item.hash⟩ } hv (hl.stable hvr)
    (hs.stable hlock hvr) hus hdone hdone
    (fun kind => .of_eq (receipts_set hnew kind)) (by simp) (by simp) hlock
  refine ⟨hcommits, fun x _ hx => gives_ok (hleased.stable hx) ⟨⟨rfl, rfl, fun k r hk => ?_⟩, ?_⟩⟩
  · rw [OrderedMap.lookup_set_of_ne]
    · exact hk
    · rintro rfl
      rw [hnew] at hk
      cases hk
  · exact ⟨_, OrderedMap.lookup_set_self, rfl⟩

theorem good_makeItem {item : SetupItem} {id : Uuid}
    (hitem : Enters (onlyItem item.key.kind id) [] (· = id) item.create)
    (hl : Leased rules.token u p w) (hdone : p.done = false) :
    workflowPromise.Good (Gives rules u fun p' => p.Extends p' ∧ p'.Has item)
      (makeItem rules u item p) (some rules.token) [] [] w := by
  refine .andThen (fun _ _ _ _ _ => gives_error) ?_
  refine good_touch hl (fun _ _ _ _ _ => by rintro _ ⟨⟩) fun t _ hl => ?_
  rintro _ -
  cases hprior : p.items.lookup item.key with
  | none => exact good_createItem hitem hl hdone hprior
  | some prior =>
    dsimp only
    split
    · rename_i hash
      exact good_ok hl ⟨.refl p, prior, hprior, hash⟩
    · exact good_error

/-- One item after the other: each has its receipt at the end. -/
theorem good_makeItems {items : List SetupItem}
    (hitems : ∀ item ∈ items, ∃ id, Enters (onlyItem item.key.kind id) [] (· = id) item.create)
    (hl : Leased rules.token u p w) (hdone : p.done = false) :
    workflowPromise.Good (Gives rules u fun p' => p.Extends p' ∧ ∀ item ∈ items, p'.Has item)
      (makeItems rules u items p) (some rules.token) [] [] w := by
  induction items generalizing p w with
  | nil => exact good_ok hl ⟨.refl p, by simp⟩
  | cons item items ih =>
    obtain ⟨⟨id, hitem⟩, hrest⟩ := List.forall_mem_cons.mp hitems
    refine .andThen (fun _ _ _ _ _ => gives_error) ((good_makeItem hitem hl hdone).mono ?_)
    rintro _ o ws ks t hgives p₁ rfl
    obtain ⟨rfl, rfl, rfl, hl₁, hext, hhas⟩ := hgives p₁ rfl
    refine (ih hrest hl₁ (hext.done.trans hdone)).mono ?_
    rintro _ o ws ks t hgives p₂ rfl
    obtain ⟨ho, hws, hks, hl₂, hext', hall⟩ := hgives p₂ rfl
    exact ⟨ho, hws, hks, hl₂, hext.trans hext',
      List.forall_mem_cons.mpr ⟨hext'.has hhas, hall⟩⟩

theorem confirmFxRate_yields {us : List Write} {js : List SetupRow} {states : List UserSetupState}
    (hus : RegistersRows us noItem states) :
    (confirmFxRate u input).Yields
      (fun _ ws _ => ∃ us', ws = us'.map books.write ∧ RegistersRows us' noItem states)
      (us.map books.write) js := by
  unfold confirmFxRate
  split
  · exact ⟨us, rfl, hus⟩
  · rename_i rate _
    have hquiet : (Write.setUserFxRate ⟨u, rate⟩).Quiet :=
      quiet_of_tables fun _ => ⟨rfl, rfl, rfl, rfl⟩
    intro _
    refine ⟨us ++ [.setUserFxRate ⟨u, rate⟩], by simp [books], ?_⟩
    have happended := hus.append hquiet
    rwa [List.append_nil] at happended

/-- The books are opened now, or were before. -/
theorem good_openBooks (hl : Leased rules.token u p w) (hdone : p.done = false) :
    workflowPromise.Good (Gives rules u fun p' => p'.base.isSome = true ∧ p'.done = false)
      (openBooks rules u input p) (some rules.token) [] [] w := by
  unfold openBooks
  cases hbase : p.base with
  | some base =>
    dsimp only
    split
    · exact good_ok hl ⟨by rw [hbase]; rfl, hdone⟩
    · exact good_error
  | none =>
    refine .bind (.look fun t _ hr t₁ _ hr₁ => ?_)
    split
    · exact good_error
    refine .yields (Tx.Yields.within (completeSetup_enters _ _ _ u _))
      (fun _ _ _ _ => gives_error) ?_
    rintro _ vs js t₂ ⟨us, is, rfl, rfl, -, hus⟩ _ hr₂
    refine .yields (confirmFxRate_yields hus) (fun _ _ _ _ => gives_error) ?_
    rintro _ vs js t₃ ⟨us', rfl, hus'⟩ _ hr₃
    have hl := (((hl.stable hr).stable hr₁).stable hr₂).stable hr₃
    refine good_saveProgress hl (sessions_books us') (fun _ _ _ _ _ => gives_error) ?_
    intro t expiry s _ hl hs v hv hvr
    have hlock : SetupRow.session u ∈ js ++ [.session u] :=
      List.mem_append_right _ List.mem_cons_self
    obtain ⟨hcommits, hleased⟩ := commits_books
      { p with fxRate := input.core.fxRate, inputMethod := input.inputMethod
               base := some (rules.digest (.core input.core)) }
      hv (hl.stable hvr) (hs.stable hlock hvr) hus' hdone hdone
      (fun kind => by simp [noItem, SetupProgress.receipts]) (by simp) (by simp [hbase]) hlock
    exact ⟨hcommits, fun x _ hx => gives_ok (hleased.stable hx) ⟨rfl, hdone⟩⟩

end Progress

/-! ## Whole runs -/

/-- The setup of the user is done, and everything the run was given has its receipt. -/
def Finished (rules : FinishRules) (u : Uuid) (input : FinishInput) (w : SetupWorld) : Prop :=
  ∃ s ∈ w.sessions, s.userId = u ∧ s.progress.done = true ∧
    ∀ item ∈ setupItems rules u input, s.progress.Has item

theorem Finished.stable {rules : FinishRules} {input : FinishInput} {o : Option Uuid}
    (h : Finished rules u input w) (hr : SessionsKept o ks w v) : Finished rules u input v := by
  obtain ⟨r, hmem, huser, hdone, hall⟩ := h
  obtain ⟨s, hs, huser', hprogress⟩ := hr.done r hmem hdone
  exact ⟨s, hs, huser'.trans huser, hprogress ▸ hdone, hprogress ▸ hall⟩

/-- If the answer is that the setup was finished, it was. -/
def Answers (rules : FinishRules) (u : Uuid) (input : FinishInput)
    (r : Except AppError SetupAnswer) (_ : Option Uuid) (_ : List SetupWrite) (_ : List SetupRow)
    (w : SetupWorld) : Prop :=
  r = .ok .finished → Finished rules u input w

section Whole
variable {rules : FinishRules} {input : FinishInput}

theorem answers_error {e : AppError} {o : Option Uuid} {ws : List SetupWrite} :
    Answers rules u input (.error e) o ws ks w := fun h => by cases h

theorem good_closeSetup (hl : Leased rules.token u p w) (hdone : p.done = false)
    (hbase : p.base.isSome = true) (hall : ∀ item ∈ setupItems rules u input, p.Has item) :
    workflowPromise.Good (Answers rules u input) (.transaction (closeSetup rules u input p))
      (some rules.token) [] [] w := by
  intro t _ hr _
  refine good_saveProgress (hl.stable hr) (fun x => rfl) (fun _ _ _ _ _ => answers_error) ?_
  intro t expiry s _ hl hs t₁ _ hr₁ _ v hv hvr
  have hlock₁ : SetupRow.session u ∈ [] ++ [] ++ [.session u] := List.mem_cons_self
  have hlock : SetupRow.session u ∈ [] ++ [] ++ [.session u] ++ [.session u] := List.mem_cons_self
  obtain ⟨hcommits, hleased⟩ := commits_closeSetup
    { p with inputMethod := input.inputMethod, done := true } hv ((hl.stable hr₁).stable hvr)
    ((hs.stable hlock₁ hr₁).stable hlock hvr) hdone hbase rfl rfl hlock
  refine ⟨hcommits, fun x _ hx _ => ?_⟩
  obtain ⟨s, hs, huser, hprogress⟩ := (hleased.stable hx).done rfl
  exact ⟨s, hs, huser, by rw [hprogress], by rw [hprogress]; exact hall⟩

/-- Every item of a run enters its registry under a new id. -/
theorem setupItems_enter : ∀ item ∈ setupItems rules u input,
    ∃ id, Enters (onlyItem item.key.kind id) [] (· = id) item.create := by
  intro item hitem
  rcases List.mem_append.mp hitem with hitem | hitem
  · rcases List.mem_append.mp hitem with hitem | hitem
    · obtain ⟨i, hi, rfl⟩ := List.mem_mapIdx.mp hitem
      exact ⟨_, (createUserVehicle_enters _ _ _).then_quiet fun _ hc => enters_done hc⟩
    · obtain ⟨i, hi, rfl⟩ := List.mem_mapIdx.mp hitem
      exact ⟨_, (createRealEstateAsset_enters _ _ _).then_quiet fun _ hc => enters_done hc⟩
  · obtain ⟨i, hi, rfl⟩ := List.mem_mapIdx.mp hitem
    exact ⟨_, createDebtRecord_enters _ _ _⟩

theorem good_finishUnder (hl : Leased rules.token u p w) :
    workflowPromise.Good (Answers rules u input) (finishUnder rules u input p) (some rules.token)
      [] [] w := by
  refine .bind (.look fun t ht hr t₁ _ hr₁ => ?_)
  split
  · exact .pure fun _ _ _ h => by cases h
  rename_i hcompleted
  have hl := hl.stable hr
  have hdone : p.done = false := by
    cases hp : p.done with
    | false => rfl
    | true =>
      obtain ⟨s, hs, rfl, rfl⟩ := hl.done hp
      exact absurd (decide_eq_true (ht.done s hs hp).1) hcompleted
  refine .andThen (fun _ _ _ _ _ => answers_error) ((good_openBooks (hl.stable hr₁) hdone).mono ?_)
  rintro _ o ws ks t₂ hgives p₁ rfl
  obtain ⟨rfl, rfl, rfl, hl₁, hbase, hdone₁⟩ := hgives p₁ rfl
  refine .andThen (fun _ _ _ _ _ => answers_error)
    ((good_makeItems setupItems_enter hl₁ hdone₁).mono ?_)
  rintro _ o ws ks t₃ hgives p₂ rfl
  obtain ⟨rfl, rfl, rfl, hl₂, hext, hall⟩ := hgives p₂ rfl
  exact good_closeSetup hl₂ (hext.done.trans hdone₁) (hext.base ▸ hbase) hall

theorem readOnly_requireRate (date : OpenedAt) : (requireRate rules u date).ReadOnly := by
  unfold requireRate
  split
  · trivial
  · split
    · trivial
    · exact (readOnly_resolveAutomaticPurchaseRate _ _ _ _).bind fun _ => trivial

theorem good_finishSetup :
    workflowPromise.Good (Answers rules u input) (finishSetup rules u input) none [] [] w := by
  refine .bind (.look fun t _ _ t₁ _ _ => ?_)
  split
  · exact .pure fun _ _ _ h => by cases h
  have hreads : (do
      Tx.ofExcept (refuseInvalid (rules.refuse input))
      Tx.each input.requiredDates (requireRate rules u) : Sql Unit).ReadOnly :=
    (Tx.readOnly_ofExcept _).bind fun _ => readOnly_each _ readOnly_requireRate
  refine .andThen (fun _ _ _ _ _ => answers_error) (.readOnly hreads.within fun _ _ _ _ => ?_)
  rintro _ -
  refine .bind (good_ensureSession rfl rfl fun t₂ _ => ?_)
  refine .bind (good_takeLease (fun t₃ _ => .pure fun _ _ _ => answers_error) fun p t₃ _ hl => ?_)
  refine .bind ((good_finishUnder hl).mono ?_)
  intro answer o ws ks t₄ hanswer
  refine .bind (good_releaseLease fun t₅ _ hr => ?_)
  exact .pure fun _ _ hr' hfinished => ((hanswer hfinished).stable hr).stable hr'

theorem good_saveSetupDraft {encrypt : String → String} {text : Option String}
    {R : Except AppError Unit → Option Uuid → List SetupWrite → List SetupRow → SetupWorld → Prop}
    (h : ∀ r o ws ks t, R r o ws ks t) :
    workflowPromise.Good R (saveSetupDraft encrypt u text) none [] [] w := by
  unfold saveSetupDraft
  split
  · exact .pure fun _ _ _ => h _ _ _ _ _
  split
  · exact .pure fun _ _ _ => h _ _ _ _ _
  rename_i text _
  refine .bind (good_ensureSession rfl rfl fun t₁ _ => ?_)
  intro t ht _ _
  refine ⟨none, .inl rfl, ?_, fun _ _ _ => h _ _ _ _ _⟩
  cases hdraftable : t.draftable u with
  | false =>
    simp only [hdraftable]
    exact .nothing ht
  | true =>
    simp only [hdraftable]
    simp only [SetupWorld.draftable, Bool.and_eq_true, List.any_eq_true, decide_eq_true_eq,
      Bool.not_eq_true', decide_eq_false_iff_not] at hdraftable
    obtain ⟨⟨s, hs, rfl, hfree⟩, hcompleted⟩ := hdraftable
    have hrow : Rewrites s (fun r => { r with draft := some (encrypt text) }) noItem t
        (applyAll [.setDraft s.userId (some (encrypt text))] t) :=
      ⟨hs, rfl, fun _ => rfl, List.Subset.refl _, fun kind => by simp [noItem]⟩
    refine hrow.commits_aside ht rfl rfl (fun i hi => ?_)
      (fun hd => absurd (ht.done s hs hd).1 hcompleted) List.mem_cons_self
    rw [show s.leaseToken = none from hfree] at hi
    cases hi

end Whole

end Rules

/-! ## Any number of runs -/

inductive WorkflowCall where
  | finish (rules : FinishRules) (userId : Uuid) (input : FinishInput)
  | draft (encrypt : String → String) (userId : Uuid) (text : Option String)

/-- The process of a call, which ends with the call and the answer. -/
def WorkflowCall.program : WorkflowCall → SetupRun (WorkflowCall × Option SetupAnswer)
  | .finish rules userId input => do
    let answer ← finishSetup rules userId input
    pure (.finish rules userId input, answer.toOption)
  | .draft encrypt userId text => do
    let _ ← saveSetupDraft encrypt userId text
    pure (.draft encrypt userId text, none)

/-- What may happen beside: time passes, and the other tables change. -/
structure BesideSetups (w v : SetupWorld) : Prop where
  sessions : v.sessions = w.sessions
  tokens : v.tokens = w.tokens
  registered : v.db.registered = w.db.registered
  states : v.db.userSetupState = w.db.userSetupState

theorem BesideSetups.kept {w v : SetupWorld} (h : BesideSetups w v) (hw : w.Receipted) :
    v.Receipted ∧ (∀ i, i ∈ w.tokens → i ∈ v.tokens) ∧ ∀ o ks, SessionsKept o ks w v := by
  refine ⟨⟨?_, ?_, ?_, ?_, ?_⟩, ?_, fun o ks => ⟨?_, ?_, ?_⟩⟩
  · exact h.sessions ▸ hw.users
  · rw [h.sessions, h.tokens]
    exact hw.tokens
  · intro kind
    rw [h.registered, SetupWorld.receipts, h.sessions]
    exact hw.registered kind
  · intro u
    rw [Db.setups, h.states, SetupWorld.opened, h.sessions]
    exact hw.opened u
  · rw [h.sessions]
    simp only [Db.setupCompleted, h.states]
    exact hw.done
  · rw [h.tokens]
    exact fun _ hi => hi
  · intro u _ s _
    rw [h.sessions]
  · intro i _ s hs htoken
    exact ⟨s, h.sessions ▸ hs, rfl, htoken, rfl⟩
  · intro r hr _
    exact ⟨r, h.sessions ▸ hr, rfl, rfl⟩

/-- The worlds that calls of the workflow reach, whatever happens beside. -/
def WorkflowReaches (w : SetupWorld)
    (c : World SetupWorld SetupWrite SetupRow SetupAssumption (WorkflowCall × Option SetupAnswer)) :
    Prop :=
  World.Reaches (fun p => ∃ call : WorkflowCall, p = call.program) BesideSetups
    (· = .freshToken) w c

def loanRules : FinishRules where
  setup := { setupRules with coins := [] }
  registry := homeRules
  refuse _ := none
  digest _ := "0"
  env := { entryId := 7, today := 20000 }
  ids := setupIds
  itemEnv key := { entryId := 0, debtId := 30 + key.index }
  token := 90

def cashAndLoan : FinishInput where
  core := cashSetup
  debts := [{ userId := some 1, title := "وام", creditor := "بانک", startDate := some 19000
              principalIrt := .ofInt 100000000 }]

def newInstallation : SetupWorld where
  db := { beforeSetup with accounts := [] }

theorem newInstallation_receipted : newInstallation.Receipted where
  users := List.nodup_nil
  tokens _ hs := by cases hs
  registered kind := by cases kind <;> exact .refl _
  opened _ := rfl
  done _ hs := by cases hs

/-- What is assumed of the tokens says nothing of the books. -/
theorem books_met {q : Assumption → Prop} (a : SetupAssumption) (ha : a = .freshToken) :
    ∀ b ∈ books.kind a, q b := by
  rw [ha]
  simp [books]

end Pwos
