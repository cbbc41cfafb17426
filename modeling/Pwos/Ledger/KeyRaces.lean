import Pwos.Ledger.Among
import Pwos.Lib.Leads

/-!
# One key, many calls

Any number of `postEntry` calls carry one idempotency key and one user. The look-up alone does
not keep them apart: two calls may both find nothing. The unique index does, so the entries of a
user are those one of the calls alone would have left (`keyed_calls_once`). Rows without a user
are not in the index, and there two calls may both post (`userless_calls_twice`).
-/

namespace Pwos

/-- The entry is the user's, under the key. -/
def JournalEntry.Under (e : JournalEntry) (userId : Option Uuid) (key : String) : Prop :=
  e.userId = userId ∧ e.idempotencyKey = some key

instance (e : JournalEntry) (userId : Option Uuid) (key : String) :
    Decidable (e.Under userId key) := inferInstanceAs (Decidable (_ ∧ _))

def Db.entriesUnder (userId : Option Uuid) (key : String) (db : Db) : List JournalEntry :=
  db.journalEntries.filter fun e => e.Under userId key

/-- The call carries the key, and the user it resolves to in `db` is this one. -/
structure KeyedCall (userId : Option Uuid) (key : String) (db : Db) (env : Env)
    (input : PostEntryInput) : Prop where
  carries : trimmedKey input.idempotencyKey = some key
  user : (resolveServiceUserId env input.userId (input.postings.map (·.accountId))).answer db =
    .ok userId

/-- A transaction that is such a call. -/
def KeyedPost (userId : Option Uuid) (key : String) (db : Db) (p : Sql PostResult) : Prop :=
  ∃ env input, KeyedCall userId key db env input ∧ p = postEntry env input

/-- One of the calls, alone from `db`, posts its entry and ends in `t`. -/
def OneCall (userId : Option Uuid) (key : String) (db t : Db) : Prop :=
  ∃ env input, KeyedCall userId key db env input ∧
    (postEntry env input).run db = .ok (⟨env.entryId, false⟩, t)

section Run
variable {userId : Option Uuid} {key : String} {env : Env} {input : PostEntryInput} {db t : Db}

/-- Entries and lots are all a posting writes. -/
theorem ofEntry_accounts {w : Write} (h : w.OfEntry) (s : Db) :
    ((Write.apply w s).accounts, (Write.apply w s).users) = (s.accounts, s.users) := by
  rcases h with ⟨e, rfl⟩ | ⟨ps, rfl⟩ | h
  · rfl
  · rfl
  · cases w <;> first | rfl | exact h.elim

theorem postEntry_accounts {r : PostResult} (h : (postEntry env input).run db = .ok (r, t)) :
    t.accounts = db.accounts ∧ t.users = db.users := by
  obtain ⟨ws, -, hws, rfl⟩ := (postEntry_writes env input).run_ok (s := db) h
  have hkeeps := applyAll_keeps (f := fun s : Db => (s.accounts, s.users))
    (fun w hw s => ofEntry_accounts (hws w hw) s) db
  exact ⟨congrArg Prod.fst hkeeps, congrArg Prod.snd hkeeps⟩

/-- The entry a call of its own leaves. -/
theorem postEntry_entries (hcall : KeyedCall userId key db env input)
    (h : (postEntry env input).run db = .ok (⟨env.entryId, false⟩, t)) :
    t.journalEntries = db.journalEntries ++ [input.entryRow env.entryId userId] ∧
      db.entriesUnder userId key = [] := by
  obtain ⟨⟨_, _, _, -, -, -, hr, -⟩, -⟩ | ⟨-, user, hchecks, hwrite⟩ := postEntryPriced_cases h
  · exact absurd (congrArg PostResult.idempotentReplay hr) Bool.false_ne_true
  obtain rfl : user = userId := Except.ok.inj (hchecks.user.symm.trans hcall.user)
  obtain ⟨_, -, ⟨lots, rfl, hlots, -, -⟩, rfl⟩ :=
    (@writeEntry_yields env none input user [] []).run_ok (s := db) hwrite
  refine ⟨?_, ?_⟩
  · exact (Adds.posting _ _ hlots).entries db
  · have hnew := hchecks.newKey key hcall.carries
    unfold Db.findByIdempotencyKey at hnew
    apply List.filter_eq_nil_iff.mpr
    intro e he
    have hother := List.find?_eq_none.mp hnew e he
    simp only [decide_eq_true_eq] at hother ⊢
    exact hother

theorem entryRow_under (hcall : KeyedCall userId key db env input) :
    (input.entryRow env.entryId userId).Under userId key := ⟨rfl, hcall.carries⟩

/-- After one call there is exactly one entry under the key. -/
theorem OneCall.entriesUnder (h : OneCall userId key db t) :
    ∃ e, t.entriesUnder userId key = [e] := by
  obtain ⟨env, input, hcall, hrun⟩ := h
  obtain ⟨hentries, hnone⟩ := postEntry_entries hcall hrun
  refine ⟨input.entryRow env.entryId userId, ?_⟩
  unfold Db.entriesUnder at *
  rw [hentries, List.filter_append, hnone]
  simp [entryRow_under hcall]

end Run

/-! ## With a user -/

section Races
variable {u : Uuid} {key : String} {db : Db}

/-- The database is as it was, or as one call alone leaves it. -/
def OnceKeyed (u : Uuid) (key : String) (db t : Db) : Prop := t = db ∨ OneCall (some u) key db t

/-- The others may end the one call, unless the key is held. -/
def keyPromise (u : Uuid) (key : String) (db : Db) : Promise Db Row Assumption where
  Assumes _ := False
  Inv := OnceKeyed u key db
  Rely ks s t := t = s ∨
    (s = db ∧ Row.idempotency u key ∉ ks ∧ s.entriesUnder (some u) key = [] ∧
      t.entriesUnder (some u) key ≠ [])
  refl _ _ := .inl rfl
  trans := by
    rintro ks s t v (rfl | ⟨rfl, hfree, hnone, hsome⟩) htv
    · exact htv
    · rcases htv with rfl | ⟨rfl, -, hnone', -⟩
      · exact .inr ⟨rfl, hfree, hnone, hsome⟩
      · exact absurd hnone' hsome
  mono := by
    rintro ks js s t hsub (rfl | ⟨rfl, hfree, hnone, hsome⟩)
    · exact .inl rfl
    · exact .inr ⟨rfl, fun hmem => hfree (hsub hmem), hnone, hsome⟩

variable {ws : List Write} {ks : List Row} {s t : Db} {env : Env} {input : PostEntryInput}

theorem keyPromise_back (h : (keyPromise u key db).Rely ks s t) (ht : t = db) : s = db := by
  rcases h with rfl | ⟨rfl, -⟩
  · exact ht
  · rfl

/-- Nobody ends a call while the key is held. -/
theorem keyPromise_held (h : (keyPromise u key db).Rely ks s t) (hks : Row.idempotency u key ∈ ks) :
    t = s := by
  rcases h with rfl | ⟨-, hfree, -⟩
  · rfl
  · exact absurd hks hfree

/-- An entry under the key stays. -/
theorem keyPromise_kept (h : (keyPromise u key db).Rely ks s t) {e : JournalEntry}
    (he : e ∈ s.entriesUnder (some u) key) : t = s := by
  rcases h with rfl | ⟨-, -, hnone, -⟩
  · rfl
  · rw [hnone] at he
    cases he

theorem OnceKeyed.accounts (h : OnceKeyed u key db t) :
    t.accounts = db.accounts ∧ t.users = db.users := by
  rcases h with rfl | ⟨env, input, -, hrun⟩
  · exact ⟨rfl, rfl⟩
  · exact postEntry_accounts hrun

/-- Without an entry under the key nothing has happened yet. -/
theorem OnceKeyed.eq_of_none (h : OnceKeyed u key db t) (hnone : t.entriesUnder (some u) key = []) :
    t = db := by
  rcases h with rfl | h
  · rfl
  · obtain ⟨e, he⟩ := h.entriesUnder
    rw [he] at hnone
    cases hnone

/-- The user is found from accounts and users, which stay as they are. -/
theorem resolveServiceUserId_gives {userId : Option Uuid} {ids : List Uuid} {a : Option Uuid}
    (h : (resolveServiceUserId env userId ids).Gives
      (fun t => t.accounts = db.accounts ∧ t.users = db.users) a) :
    (resolveServiceUserId env userId ids).answer db = .ok a := by
  cases userId with
  | some v => simpa [resolveServiceUserId, Tx.answer, Except.map] using h
  | none =>
    unfold resolveServiceUserId at *
    dsimp only at h ⊢
    obtain ⟨_, ⟨s, hs, rfl⟩, h⟩ := Tx.gives_bind.mp h
    have howner : (ids.head?.bind s.findAccount).bind (·.userId) =
        (ids.head?.bind db.findAccount).bind (·.userId) := by
      unfold Db.findAccount
      rw [hs.1]
    dsimp only at h
    rw [howner] at h
    rw [Tx.answer, Tx.run_read_bind]
    split at h
    · simp_all [Except.map]
    · split at h
      · simp_all [Except.map]
      · obtain ⟨_, ⟨s', hs', rfl⟩, h⟩ := Tx.gives_bind.mp h
        dsimp only at h
        rw [hs'.2] at h
        rw [Tx.run_read_bind]
        split at h <;> simp_all [Except.map]

/-- How a call ends among the others: it returns the entry that is there and writes nothing, or
it posts from the first state, with the key held. -/
inductive KeyOutcome (u : Uuid) (key : String) (db : Db) (env : Env) :
    PostResult → List Write → List Row → Db → Prop
  | replayed {e : JournalEntry} {js : List Row} {t : Db} (mem : e ∈ t.entriesUnder (some u) key) :
    KeyOutcome u key db env ⟨e.id, true⟩ [] js t
  | posted {vs : List Write} {js : List Row} (held : Row.idempotency u key ∈ js) :
    KeyOutcome u key db env ⟨env.entryId, false⟩ vs js db

theorem keyed_write (hcall : KeyedCall (some u) key db env input) :
    (keyPromise u key db).Ok (fun _ vs js t => KeyOutcome u key db env ⟨env.entryId, false⟩ vs js t)
      (writeEntry env none input (some u)) [] ks s := by
  unfold writeEntry insertEntry
  refine .bind (.insert ?_)
  intro t ht _ hnew v _ htv
  -- the index has no entry under the key, so this is still the first state
  have hnone : t.entriesUnder (some u) key = [] := by
    obtain hu | hkey | hall := hnew.2.1
    · cases hu
    · exact absurd (hcall.carries.symm.trans hkey) (by simp)
    · apply List.filter_eq_nil_iff.mpr
      intro e he
      have hother := hall e he
      rw [entryRow_under hcall |>.1, entryRow_under hcall |>.2] at hother
      simp only [decide_eq_true_eq]
      exact hother
  obtain rfl := ht.eq_of_none hnone
  set row := input.entryRow env.entryId (some u)
  set held : List Row := .entry row.id :: (row.userId.bind fun u =>
    row.idempotencyKey.map (.idempotency u)).toList
  have hheld : Row.idempotency u key ∈ ks ++ held := by
    have hkey : row.idempotencyKey = some key := hcall.carries
    simp [held, hkey, show row.userId = some u from rfl]
  obtain rfl := keyPromise_held htv hheld
  refine .yields (writeLines_yields env none input (some u)) ?_
  rintro _ _ js w _ hvw -
  have hmem : Row.idempotency u key ∈ ks ++ held ++ js := List.mem_append_left _ hheld
  obtain rfl := keyPromise_held hvw hheld
  exact .posted hmem

theorem keyed_post (hcall : KeyedCall (some u) key db env input) :
    (keyPromise u key db).Ok (KeyOutcome u key db env) (postEntry env input) [] [] s := by
  unfold postEntry postEntryPriced
  refine .bind (.of_readOnly (Tx.readOnly_ofExcept _) fun _ _ _ _ => ?_)
  refine .bind (.of_gives (V := fun t => t.accounts = db.accounts ∧ t.users = db.users)
    (readOnly_resolveServiceUserId _ _ _) (fun t ht => ht.accounts) fun userId _ _ _ hgives => ?_)
  obtain rfl : userId = some u :=
    Except.ok.inj ((resolveServiceUserId_gives hgives).symm.trans hcall.user)
  rw [hcall.carries]
  refine .bind (.bind (.read ?_))
  intro t _ _ v _ htv
  cases hfound : (applyAll [] t).findByIdempotencyKey (some u) key with
  | none =>
    intro w _ _
    refine .bind (.yields (lockAccounts_yields _) ?_)
    rintro _ _ js x _ _ ⟨rfl, -, -⟩
    refine .bind (.of_readOnly (readOnly_when (readOnly_guardOverdraft _ _)) fun _ _ _ _ => ?_)
    exact .map (keyed_write hcall)
  | some found =>
    have hmem : found ∈ t.entriesUnder (some u) key := by
      apply List.mem_filter.mpr
      have hunder := List.find?_some hfound
      exact ⟨List.mem_of_find?_eq_some hfound, hunder⟩
    refine .bind (.require fun _ w _ hvw => ?_)
    intro x _ hwx y _ hxy
    have hsame := keyPromise_kept ((keyPromise u key db).trans ((keyPromise u key db).trans htv hvw)
      ((keyPromise u key db).trans hwx hxy)) hmem
    exact .replayed (hsame ▸ hmem)

/-- What the call returns is the entry the key has afterwards. -/
def ReturnsKeyed (u : Uuid) (key : String) (r : PostResult) (vs : List Write) (_ : List Row)
    (t : Db) : Prop :=
  ∃ e ∈ (applyAll vs t).entriesUnder (some u) key, e.id = r.id

theorem keyed_honours (hcall : KeyedCall (some u) key db env input) :
    (keyPromise u key db).Honours (ReturnsKeyed u key) (postEntry env input) := by
  intro s _
  refine ((keyed_post hcall).and (.as_alone keyPromise_back _ _ _ _)).mono ?_
  rintro r vs js t ht ⟨hend, halone⟩
  cases hend with
  | replayed mem => exact ⟨⟨ht, fun _ _ => .inl rfl⟩, _, mem, rfl⟩
  | posted held =>
    have hone : OneCall (some u) key db (applyAll vs db) := ⟨env, input, hcall, halone rfl⟩
    obtain ⟨hentries, hnone⟩ := postEntry_entries hcall (halone rfl)
    obtain ⟨e, he⟩ := hone.entriesUnder
    refine ⟨⟨.inr hone, fun others hfree => .inr ⟨rfl, fun hmem => hfree _ hmem held, hnone, ?_⟩⟩, ?_⟩
    · rw [he]
      exact List.cons_ne_nil _ _
    · refine ⟨input.entryRow env.entryId (some u), ?_, rfl⟩
      apply List.mem_filter.mpr
      exact ⟨hentries ▸ List.mem_append_right _ List.mem_cons_self,
        decide_eq_true (entryRow_under hcall)⟩

/-- However the calls of a user under one key interleave, the committed state is the first one or
what one of the calls alone makes of it, and whatever call commits returns the one entry. -/
theorem keyed_calls_once (hnd : (db.lots.map (·.id)).Nodup)
    (hone : (db.entriesUnder (some u) key).length ≤ 1)
    {c : System Db Write Row Assumption AppError PostResult}
    (h : System.Reaches (KeyedPost (some u) key db) (fun _ => False) db c) :
    (c.committed.entriesUnder (some u) key).length ≤ 1 ∧
      (c.committed = db ∨ ∃ env input, KeyedCall (some u) key db env input ∧
        Posted env input (some u) db c.committed) ∧
      ∀ i r vs ks, c.sessions i = some ⟨.done r, vs, ks⟩ →
        ∃ e, (applyAll vs c.committed).entriesUnder (some u) key = [e] ∧ e.id = r.id := by
  have hsafe : System.Safe (keyPromise u key db) (ReturnsKeyed u key) c := by
    refine System.Reaches.safe (P := keyPromise u key db) (.inl rfl) ?_ h
    rintro _ ⟨env, input, hcall, rfl⟩
    exact keyed_honours hcall
  have hlength : ∀ {t : Db}, OnceKeyed u key db t → (t.entriesUnder (some u) key).length ≤ 1 := by
    rintro t (rfl | ht)
    · exact hone
    · obtain ⟨e, he⟩ := ht.entriesUnder
      simp [he]
  refine ⟨hlength hsafe.inv, ?_, ?_⟩
  · obtain hsame | ⟨env, input, hcall, hrun⟩ := hsafe.inv
    · exact .inl hsame
    · obtain ⟨⟨_, _, _, -, -, -, hr, -⟩, -⟩ | ⟨-, user, hposted⟩ := postEntryPriced_ok hnd hrun
      · exact absurd (congrArg PostResult.idempotentReplay hr) Bool.false_ne_true
      · obtain rfl : user = some u := Except.ok.inj (hposted.user.symm.trans hcall.user)
        exact .inr ⟨env, input, hcall, hposted⟩
  · intro i r vs ks hi
    obtain ⟨e, he, hid⟩ := hsafe.ends hi
    have hcommits := (hsafe.ok i _ hi c.committed hsafe.inv (.inl rfl)).1.1
    have hpos := List.length_pos_of_mem he
    obtain ⟨f, hf⟩ := List.length_eq_one_iff.mp (Nat.le_antisymm (hlength hcommits) hpos)
    rw [hf] at he
    obtain rfl := List.mem_singleton.mp he
    exact ⟨e, hf, hid⟩

end Races

/-! ## Two calls -/

/-- A bank account and an expense account. -/
def demoLunch (users : List Uuid) : Db :=
  { users
    assets := [⟨1, "USD", "fiat", false⟩]
    accounts := [⟨11, 0, users.head?, "1010", "Bank", .asset, some 1, false⟩,
      ⟨12, 0, users.head?, "5900", "Other expenses", .expense, some 1, false⟩] }

/-- Ten dollars spent, under the key `k`. -/
def lunchEntry : PostEntryInput :=
  { entryDate := 20260101, type := .expense, description := "lunch"
    postings := [⟨11, 1, .ofInt (-10), .ofInt (-10), none⟩, ⟨12, 1, .ofInt 10, .ofInt 10, none⟩]
    idempotencyKey := some "k" }

def lunchCall (entryId : Uuid) : Sql PostResult := postEntry { entryId } lunchEntry

/-- Both calls look the key up before either posts. The first then posts and commits, and the
second goes on. -/
def lunchOverlap (lookUp : Nat) (last : List (Move Db Write Row Assumption AppError PostResult)) :
    List (Move Db Write Row Assumption AppError PostResult) :=
  [Move.begin 0 (lunchCall 70), Move.begin 1 (lunchCall 71)] ++ List.replicate lookUp (Move.go 0) ++
    List.replicate lookUp (Move.go 1) ++ List.replicate 4 (Move.go 0) ++ [Move.commit 0] ++ last

/-- A schedule of the two calls, checked where it ends. -/
theorem exists_lunchOverlap (users : List Uuid) (userId : Option Uuid)
    (moves : List (Move Db Write Row Assumption AppError PostResult)) (check : Db → Bool)
    (hbegun : Board.begun moves = [lunchCall 70, lunchCall 71])
    (hcall : ∀ entryId, KeyedCall userId "k" (demoLunch users) { entryId } lunchEntry)
    (h : ((Board.idle 2 (demoLunch users)).replay moves).any (fun b => check b.committed) = true) :
    ∃ c, System.Reaches (KeyedPost userId "k" (demoLunch users)) (fun _ => False)
      (demoLunch users) c ∧ check c.committed = true := by
  have hcalls : ∀ p ∈ Board.begun moves, KeyedPost userId "k" (demoLunch users) p := by
    intro p hp
    rw [hbegun] at hp
    rcases List.mem_pair.mp hp with rfl | rfl
    · exact ⟨{ entryId := 70 }, lunchEntry, hcall 70, rfl⟩
    · exact ⟨{ entryId := 71 }, lunchEntry, hcall 71, rfl⟩
  exact Board.exists_reaches hcalls h

theorem lunch_keyed (users : List Uuid) (entryId : Uuid)
    (h : users.length ≤ 1) : KeyedCall users.head? "k" (demoLunch users) { entryId } lunchEntry := by
  refine ⟨by decide, ?_⟩
  match users, h with
  | [], _ => rfl
  | [u], _ => rfl

/-- With a user the second call is refused. -/
theorem lunch_once : ∃ c, System.Reaches (KeyedPost (some 1) "k" (demoLunch [1]))
    (fun _ => False) (demoLunch [1]) c ∧ c.committed.journalEntries.length = 1 ∧
      (c.committed.entriesUnder (some 1) "k").length ≤ 1 := by
  obtain ⟨c, hc, hlength⟩ := exists_lunchOverlap [1] (some 1)
    (lunchOverlap 2 (List.replicate 3 (Move.go 1))) (fun t => t.journalEntries.length == 1) rfl
    (fun i => lunch_keyed [1] i (by decide)) (by decide)
  exact ⟨c, hc, eq_of_beq hlength, (keyed_calls_once (by decide) (by decide) hc).1⟩

/-- Without a user both calls post. -/
theorem userless_calls_twice : (demoLunch []).journalEntries = [] ∧
    ∃ c, System.Reaches (KeyedPost none "k" (demoLunch [])) (fun _ => False) (demoLunch []) c ∧
      (c.committed.entriesUnder none "k").length = 2 := by
  obtain ⟨c, hc, hlength⟩ := exists_lunchOverlap [] none
    (lunchOverlap 3 (List.replicate 4 (Move.go 1) ++ [Move.commit 1]))
    (fun t => (t.entriesUnder none "k").length == 2) rfl
    (fun i => lunch_keyed [] i (by decide)) (by decide)
  exact ⟨rfl, c, hc, eq_of_beq hlength⟩

end Pwos
