import Pwos.Lib.Fenced
import Pwos.Domain.Accounting

/-!
# Sessions

`lib/auth.ts` without the external provider: a login draws a token of which only the hash is stored,
and a request that brings the token back is answered with its user, until the session expires or is
ended. However the requests interleave, an answer is what was true while the request ran
(`sessions_sound`).

The hash is a parameter. `logins` and `ended` are history: what was handed out, and what was logged
out or went with its user.
-/

namespace Pwos

namespace Sessions

/-! ## The tables -/

structure AppUser where
  id : Uuid
  name : String
  username : Option String
  email : Option String
  role : String
  deriving DecidableEq

structure SessionRow where
  userId : Uuid
  /-- As it is stored. -/
  token : String
  expiresAt : Nat
  deriving DecidableEq

/-- A session with the token the browser got. -/
structure Login where
  userId : Uuid
  token : String
  expiresAt : Nat
  deriving DecidableEq

structure SessionsWorld where
  users : List AppUser := []
  sessions : List SessionRow := []
  now : Nat := 0
  logins : List Login := []
  ended : List Login := []

def SessionsWorld.knows (w : SessionsWorld) (userId : Uuid) : Bool :=
  (w.users.map (·.id)).contains userId

inductive SessionWrite where
  | insert (row : SessionRow) (login : Login)
  | delete (value : String)
  | deleteAll
  /-- What a log-out and an invalidation are for. -/
  | ends (p : Login → Bool)

def SessionWrite.apply : SessionWrite → SessionsWorld → SessionsWorld
  | .insert row login, w =>
    { w with sessions := w.sessions ++ [row], logins := w.logins ++ [login] }
  | .delete value, w => { w with sessions := w.sessions.filter (·.token ≠ value) }
  | .deleteAll, w => { w with sessions := [] }
  | .ends p, w => { w with ended := w.ended ++ w.logins.filter p }

instance : Writable SessionsWorld SessionWrite := ⟨SessionWrite.apply⟩

/-- The users are `users` now: who is gone took his sessions along. -/
def SessionsWorld.withUsers (w : SessionsWorld) (users : List AppUser) : SessionsWorld :=
  let gone (id : Uuid) : Bool := !(users.map (·.id)).contains id
  { w with users, sessions := w.sessions.filter fun r => !gone r.userId
           ended := w.ended ++ w.logins.filter fun l => gone l.userId }

/-- The assumption that a token is drawn for the first time. -/
inductive Drawn where
  | fresh

abbrev SessionRun := Process SessionsWorld SessionWrite Empty Drawn

/-! ## The calls -/

section Calls
variable (hash : String → String)

def Login.row (l : Login) : SessionRow := ⟨l.userId, hash l.token, l.expiresAt⟩

def SESSION_TTL_MS : Nat := 30 * 24 * 60 * 60 * 1000

def SessionsWorld.lookupSessionRow (w : SessionsWorld) (tokenValue : String) :
    Option (AppUser × SessionRow) :=
  (w.sessions.filter (·.token = tokenValue)).findSome? fun r =>
    (w.users.find? (·.id = r.userId)).map (·, r)

/-- The foreign key and the unique index let the row in. -/
def SessionsWorld.accepts (w : SessionsWorld) (row : SessionRow) : Bool :=
  w.knows row.userId && !(w.sessions.map (·.token)).contains row.token

/-- No session where the insert is refused. -/
def createSession (userId : Uuid) (token : String) : SessionRun (Option Login) := do
  let now ← Process.look (·.now)
  let login : Login := ⟨userId, token, now + SESSION_TTL_MS⟩
  .auto (fun _ => []) (fun _ w => token ≠ "" ∧ token ∉ w.logins.map (·.token))
    (fun w => if w.accepts (login.row hash) then [.insert (login.row hash) login] else [])
    fun w => .done (if w.accepts (login.row hash) then some login else none)

def deleteSession (value : String) : SessionRun Unit :=
  .auto (fun _ => []) (fun _ _ => True) (fun _ => [.delete value]) fun _ => .done ()

def destroySession (token : String) : SessionRun Unit :=
  if token = "" then pure ()
  else .auto (fun _ => []) (fun _ _ => True)
    (fun _ => [.delete (hash token), .ends fun l => l.token = token]) fun _ => .done ()

def invalidateAllSessions : SessionRun Unit :=
  .auto (fun _ => []) (fun _ _ => True) (fun _ => [.deleteAll, .ends fun _ => true])
    fun _ => .done ()

/-- A raw row of earlier days is never let in; it is only cleaned up. -/
def getSessionUser (token : String) : SessionRun (Option AppUser) :=
  if token = "" then pure none
  else do
    let hashed := hash token
    let row ← Process.look (·.lookupSessionRow hashed)
    match row with
    | none => do
      let legacyExpired ← Process.look (·.lookupSessionRow token)
      let now ← Process.look (·.now)
      if legacyExpired.any (·.2.expiresAt < now) then do
        let _ ← deleteSession token
        pure none
      else pure none
    | some (user, session) => do
      let now ← Process.look (·.now)
      if session.expiresAt < now then do
        let _ ← deleteSession hashed
        pure none
      else pure (some user)

end Calls

/-! ## The invariant -/

variable (hash : String → String)

/-- A row is that of a login that was not ended, or it is an old one whose value is no hash; and a
login that was neither ended nor has expired has its row. -/
structure Sound (w : SessionsWorld) : Prop where
  rows : ∀ r ∈ w.sessions,
    (∃ l ∈ w.logins, l ∉ w.ended ∧ r = l.row hash) ∨ ∀ token, hash token ≠ r.token
  present : ∀ l ∈ w.logins, l ∉ w.ended → w.now ≤ l.expiresAt → l.row hash ∈ w.sessions
  users : ∀ r ∈ w.sessions, w.knows r.userId = true
  values : (w.sessions.map (·.token)).Nodup
  tokens : (w.logins.map (·.token)).Nodup
  drawn : ∀ l ∈ w.logins, l.token ≠ ""
  past : w.ended ⊆ w.logins

/-- History only grows. -/
structure Later (s t : SessionsWorld) : Prop where
  now : s.now ≤ t.now
  logins : s.logins ⊆ t.logins
  ended : s.ended ⊆ t.ended

theorem Later.refl (s : SessionsWorld) : Later s s :=
  ⟨le_rfl, List.Subset.refl _, List.Subset.refl _⟩

theorem Later.trans {s t w : SessionsWorld} (h : Later s t) (h' : Later t w) : Later s w :=
  ⟨h.now.trans h'.now, List.Subset.trans h.logins h'.logins,
    List.Subset.trans h.ended h'.ended⟩

def sessionPromise : FencedPromise SessionsWorld Empty Drawn Empty where
  Assumes _ := True
  Inv := Sound hash
  Taken _ _ := False
  Rely _ _ := Later
  refl _ _ := Later.refl
  trans := Later.trans
  mono _ h := h

variable {hash} {s t w : SessionsWorld} {l : Login} {o : Option Empty}

/-- No login that is still good has the value. -/
def Dead (hash : String → String) (value : String) (w : SessionsWorld) : Prop :=
  ∀ l ∈ w.logins, hash l.token = value → l ∈ w.ended ∨ l.expiresAt < w.now

theorem Sound.unique (h : Sound hash w) {l' : Login} (hl : l ∈ w.logins) (hl' : l' ∈ w.logins)
    (htoken : l.token = l'.token) : l = l' :=
  List.inj_on_of_nodup_map h.tokens hl hl' htoken

/-- An expired row stays that of an expired login: its token is not drawn again. -/
theorem Sound.dead (hash_inj : Function.Injective hash) {r : SessionRow} (hs : Sound hash s)
    (hr : r ∈ s.sessions) (hst : Later s t) (ht : Sound hash t) (hexpired : r.expiresAt < t.now) :
    Dead hash r.token t := by
  intro l hl htoken
  rcases hs.rows r hr with ⟨l', hl', -, rfl⟩ | hlegacy
  · obtain rfl := ht.unique hl (hst.logins hl') (hash_inj htoken)
    exact .inr hexpired
  · exact absurd htoken (hlegacy l.token)

/-! ## The statements -/

theorem sound_delete {value : String} (h : Sound hash w) (hdead : Dead hash value w) :
    Sound hash ((SessionWrite.delete value).apply w) where
  rows r hr := h.rows r (List.mem_of_mem_filter hr)
  present l hl hlive hnow := by
    refine List.mem_filter.mpr ⟨h.present l hl hlive hnow, decide_eq_true fun heq => ?_⟩
    rcases hdead l hl heq with hended | hexpired
    · exact hlive hended
    · exact absurd hexpired (not_lt.mpr hnow)
  users r hr := h.users r (List.mem_of_mem_filter hr)
  values := h.values.sublist (List.filter_sublist.map _)
  tokens := h.tokens
  drawn := h.drawn
  past := h.past

/-- Sessions that go together with their logins. -/
theorem sound_end (p : Login → Bool) (keep : SessionRow → Bool) {users : List AppUser}
    (h : Sound hash w) (hkeep : ∀ l ∈ w.logins, keep (l.row hash) = !p l)
    (husers : ∀ r ∈ w.sessions, keep r = true → (users.map (·.id)).contains r.userId = true) :
    Sound hash { w with users, sessions := w.sessions.filter keep
                        ended := w.ended ++ w.logins.filter p } where
  rows r hr := by
    obtain ⟨hmem, hkept⟩ := List.mem_filter.mp hr
    rcases h.rows r hmem with ⟨l, hl, hlive, rfl⟩ | hlegacy
    · refine .inl ⟨l, hl, fun hended => ?_, rfl⟩
      have hp := hkeep l hl
      rcases List.mem_append.mp hended with hended | hended
      · exact hlive hended
      · simp_all
    · exact .inr hlegacy
  present l hl hlive hnow := by
    have hnot : l ∉ w.ended ∧ l ∉ w.logins.filter p := by simpa using hlive
    refine List.mem_filter.mpr ⟨h.present l hl hnot.1 hnow, ?_⟩
    rw [hkeep l hl]
    simpa [hl] using hnot.2
  users r hr := husers r (List.mem_of_mem_filter hr) (List.mem_filter.mp hr).2
  values := h.values.sublist (List.filter_sublist.map _)
  tokens := h.tokens
  drawn := h.drawn
  past := List.append_subset.mpr ⟨h.past, List.filter_subset_self _⟩

theorem sound_logout (hash_inj : Function.Injective hash) (h : Sound hash w) (token : String) :
    Sound hash (applyAll [.delete (hash token), .ends fun l => l.token = token] w) :=
  sound_end _ (·.token ≠ hash token) h (fun l _ => by simp [Login.row, hash_inj.eq_iff])
    fun r hr _ => h.users r hr

theorem sound_deleteAll (h : Sound hash w) :
    Sound hash (applyAll [.deleteAll, .ends fun _ => true] w) := by
  simpa [Writable.apply, SessionWrite.apply] using
    sound_end (fun _ => true) (fun _ => false) h (fun _ _ => rfl) fun r hr _ => h.users r hr

theorem sound_withUsers (h : Sound hash w) (users : List AppUser) :
    Sound hash (w.withUsers users) :=
  sound_end _ _ h (fun _ _ => rfl) fun r _ hkept => by simpa using hkept

theorem sound_insert (h : Sound hash w) (haccepts : w.accepts (l.row hash) = true)
    (hdrawn : l.token ≠ "") (hfresh : l.token ∉ w.logins.map (·.token)) :
    Sound hash ((SessionWrite.insert (l.row hash) l).apply w) := by
  obtain ⟨hknown, hnew⟩ : w.knows l.userId = true ∧
      (l.row hash).token ∉ w.sessions.map (·.token) := by
    simpa [SessionsWorld.accepts, Login.row] using haccepts
  have hlive : l ∉ w.ended := fun hended => hfresh (List.mem_map_of_mem (h.past hended))
  refine ⟨fun r hr => ?_, fun l' hl' hended hnow => ?_, fun r hr => ?_, ?_, ?_, fun l' hl' => ?_,
    fun l' hl' => List.mem_append_left _ (h.past hl')⟩
  · rcases List.mem_append.mp hr with hr | hr
    · refine (h.rows r hr).imp_left ?_
      rintro ⟨l', hl', hrest⟩
      exact ⟨l', List.mem_append_left _ hl', hrest⟩
    · exact .inl ⟨l, by simp [SessionWrite.apply], hlive, List.mem_singleton.mp hr⟩
  · rcases List.mem_append.mp hl' with hl' | hl'
    · exact List.mem_append_left _ (h.present l' hl' hended hnow)
    · obtain rfl := List.mem_singleton.mp hl'
      simp [SessionWrite.apply]
  · rcases List.mem_append.mp hr with hr | hr
    · exact h.users r hr
    · obtain rfl := List.mem_singleton.mp hr
      exact hknown
  · simpa [SessionWrite.apply] using List.concat_eq_append ▸ h.values.concat hnew
  · simpa [SessionWrite.apply] using List.concat_eq_append ▸ h.tokens.concat hfresh
  · rcases List.mem_append.mp hl' with hl' | hl'
    · exact h.drawn l' hl'
    · exact List.mem_singleton.mp hl' ▸ hdrawn

theorem later_withUsers (s : SessionsWorld) (users : List AppUser) : Later s (s.withUsers users) :=
  ⟨le_rfl, List.Subset.refl _, List.subset_append_left _ _⟩

theorem SessionWrite.later (v : SessionWrite) (s : SessionsWorld) : Later s (v.apply s) := by
  cases v with
  | insert row login => exact ⟨le_rfl, List.subset_append_left _ _, List.Subset.refl _⟩
  | delete value => exact ⟨le_rfl, List.Subset.refl _, List.Subset.refl _⟩
  | deleteAll => exact ⟨le_rfl, List.Subset.refl _, List.Subset.refl _⟩
  | ends p => exact ⟨le_rfl, List.Subset.refl _, List.subset_append_left _ _⟩

theorem later_applyAll (vs : List SessionWrite) (s : SessionsWorld) : Later s (applyAll vs s) := by
  induction vs generalizing s with
  | nil => exact .refl s
  | cons v vs ih => exact (v.later s).trans (ih _)

theorem commits {vs : List SessionWrite} {ks : List Empty} (h : Sound hash (applyAll vs s)) :
    (sessionPromise hash).Commits o vs ks s :=
  ⟨h, fun _ hi => hi, fun _ _ _ _ => later_applyAll vs s⟩

/-! ## Requests -/

theorem lookup_some {value : String} {u : AppUser} {r : SessionRow}
    (h : w.lookupSessionRow value = some (u, r)) :
    r ∈ w.sessions ∧ r.token = value ∧ u.id = r.userId := by
  obtain ⟨r', hr', hjoin⟩ := List.exists_of_findSome?_eq_some h
  obtain ⟨u', hu', heq⟩ := Option.map_eq_some_iff.mp hjoin
  obtain ⟨rfl, rfl⟩ := Prod.mk.inj heq
  obtain ⟨hmem, htoken⟩ := List.mem_filter.mp hr'
  exact ⟨hmem, of_decide_eq_true htoken, by simpa using List.find?_some hu'⟩

/-- Every row has its user, so the join loses none. -/
theorem Sound.lookup_none (h : Sound hash w) {value : String}
    (hnone : w.lookupSessionRow value = none) : ∀ r ∈ w.sessions, r.token ≠ value := by
  intro r hr htoken
  have hjoin := List.findSome?_eq_none_iff.mp hnone r (List.mem_filter.mpr ⟨hr, by simpa⟩)
  have hnot := List.find?_eq_none.mp (Option.map_eq_none_iff.mp hjoin)
  have hknown := h.users r hr
  simp [SessionsWorld.knows] at hknown hnot
  obtain ⟨u, hu, hid⟩ := hknown
  exact hnot u hu hid

inductive SessionCall where
  | login (userId : Uuid) (token : String)
  | logout (token : String)
  | invalidate
  | request (token : String)

inductive SessionAnswer where
  | session (login : Option Login)
  | done
  | user (user : Option AppUser)

/-- What an answer says, of a call that began in `began`. -/
def Told (began w : SessionsWorld) : SessionCall → SessionAnswer → Prop
  | .login userId token, .session (some l) => l ∈ w.logins ∧ l.userId = userId ∧
      l.token = token ∧ began.now + SESSION_TTL_MS ≤ l.expiresAt
  | .logout token, .done => ∀ l ∈ began.logins, l.token = token → l ∈ w.ended
  | .invalidate, .done => began.logins ⊆ w.ended
  | .request token, .user (some u) => ∃ l ∈ w.logins, l.token = token ∧ l.userId = u.id ∧
      l ∉ began.ended ∧ began.now ≤ l.expiresAt
  | .request token, .user none =>
      ∀ l ∈ began.logins, l.token = token → l ∈ w.ended ∨ l.expiresAt < w.now
  | _, _ => True

variable {began : SessionsWorld} {call : SessionCall} {answer : SessionAnswer} {token : String}
  {ws : List SessionWrite} {ks : List Empty}

theorem Told.stable (h : Told began s call answer) (hst : Later s t) :
    Told began t call answer := by
  cases call <;> cases answer <;> try trivial
  case login.session userId token login =>
    cases login with
    | none => trivial
    | some l => exact ⟨hst.logins h.1, h.2⟩
  case logout.done => exact fun l hl htoken => hst.ended (h l hl htoken)
  case invalidate.done => exact List.Subset.trans h hst.ended
  case request.user token user =>
    cases user with
    | none => exact fun l hl htoken => (h l hl htoken).imp (@hst.ended l) (·.trans_le hst.now)
    | some u =>
      obtain ⟨l, hl, hrest⟩ := h
      exact ⟨l, hst.logins hl, hrest⟩

/-- Nobody is let in where no login of the token is good. -/
theorem Dead.told (h : Dead hash (hash token) w) (hw : Later began w) :
    Told began w (.request token) (.user none) :=
  fun l hl htoken => h l (hw.logins hl) (congrArg hash htoken)

theorem good_deleteSession {value : String}
    {Q : Unit → Option Empty → List SessionWrite → List Empty → SessionsWorld → Prop}
    (hdead : ∀ t, Sound hash t → Later w t → Dead hash value t)
    (h : ∀ t, Later w t → Q () o ws ks t) :
    (sessionPromise hash).Good Q (deleteSession value) o ws ks w := by
  intro t ht hwt _
  have hcommits : (sessionPromise hash).Commits o [.delete value] [] t :=
    commits (sound_delete ht (hdead t ht hwt))
  exact ⟨o, .inl rfl, hcommits, fun u _ hu =>
    h u ((hwt.trans (later_applyAll [.delete value] t)).trans hu)⟩

/-- The row that is found is judged by a clock that is read after it. -/
theorem good_getSessionUser (hash_inj : Function.Injective hash) (hb : Sound hash began)
    (hw : Later began w) :
    (sessionPromise hash).Good (fun a _ _ _ v => Told began v (.request token) (.user a))
      (getSessionUser hash token) o ws ks w := by
  unfold getSessionUser
  split
  · rename_i hempty
    exact .pure fun v _ _ l hl htoken => absurd (htoken.trans hempty) (hb.drawn l hl)
  refine .bind (.look fun t ht hwt t₁ ht₁ hr₁ => ?_)
  have hbt : Later began t := hw.trans hwt
  split
  · rename_i hnone
    -- No row at `t`: the login had ended, or had expired.
    have hnot := ht.lookup_none hnone
    have htold : Told began t (.request token) (.user none) := by
      intro l hl htoken
      by_contra hlive
      push Not at hlive
      exact hnot _ (ht.present l (hbt.logins hl) hlive.1 hlive.2) (congrArg hash htoken)
    refine .bind (.look fun t₂ ht₂ hr₂ t₃ ht₃ hr₃ => .bind (.look fun t₄ ht₄ hr₄ t₅ ht₅ hr₅ => ?_))
    have h₂ : Later t t₂ := Later.trans hr₁ hr₂
    have h₅ : Later t₂ t₅ := Later.trans hr₃ (Later.trans hr₄ hr₅)
    split
    · rename_i hexpired
      obtain ⟨⟨u, r⟩, hfound, hlt⟩ := (Option.any_eq_true _ _).mp hexpired
      obtain ⟨hmem, rfl, -⟩ := lookup_some hfound
      have hexpired : r.expiresAt < t₄.now := of_decide_eq_true hlt
      refine .bind (good_deleteSession (fun t₆ ht₆ hr₆ => ?_) fun t₆ hr₆ => .pure fun v _ hv => ?_)
      · exact ht₂.dead hash_inj hmem (h₅.trans hr₆) ht₆ 
          (hexpired.trans_le ((Later.trans hr₅ hr₆).now))
      · exact htold.stable (h₂.trans (h₅.trans (hr₆.trans hv)))
    · exact .pure fun v _ hv => htold.stable (h₂.trans (h₅.trans hv))
  · rename_i u r hsome
    obtain ⟨hmem, htoken, huser⟩ := lookup_some hsome
    refine .bind (.look fun t₂ ht₂ hr₂ t₃ ht₃ hr₃ => ?_)
    have h₂ : Later t t₂ := Later.trans hr₁ hr₂
    split
    · rename_i hexpired
      have hdead : ∀ {v}, Sound hash v → Later t₃ v → Dead hash (hash token) v := by
        intro v hv h₃
        have hlt := hexpired.trans_le ((Later.trans hr₃ h₃).now)
        exact htoken ▸ ht.dead hash_inj hmem (h₂.trans (Later.trans hr₃ h₃)) hv hlt
      refine .bind (good_deleteSession (fun t₄ ht₄ hr₄ => hdead ht₄ hr₄) fun t₄ hr₄ => ?_)
      refine .pure fun v hv hr₅ => (hdead hv (hr₄.trans hr₅)).told ?_
      exact hbt.trans (h₂.trans (Later.trans hr₃ (hr₄.trans hr₅)))
    · rename_i hgood
      refine .pure fun v _ hv => ?_
      rcases ht.rows r hmem with ⟨l, hl, hlive, rfl⟩ | hlegacy
      · have hall : Later t v := h₂.trans (Later.trans hr₃ hv)
        have htoken' : l.token = token := hash_inj htoken
        refine ⟨l, hall.logins hl, htoken', huser.symm, fun hended => hlive (hbt.ended hended), ?_⟩
        exact (hbt.now.trans h₂.now).trans (not_lt.mp hgood)
      · exact absurd htoken.symm (hlegacy token)

/-! ## Logging in and out -/

theorem good_createSession (hw : Later began w) {userId : Uuid} :
    (sessionPromise hash).Good
      (fun a _ _ _ v => Told began v (.login userId token) (.session a))
      (createSession hash userId token) o ws ks w := by
  refine .bind (.look fun t ht hwt t₁ ht₁ hr₁ => fun t₂ ht₂ hr₂ hx => ?_)
  obtain ⟨hdrawn, hfresh⟩ := hx .fresh trivial
  beta_reduce
  split
  · rename_i haccepts
    refine ⟨o, .inl rfl, commits (sound_insert ht₂ haccepts hdrawn hfresh), fun v _ hv => ?_⟩
    refine Told.stable ?_ hv
    refine ⟨by simp [Writable.apply, SessionWrite.apply], rfl, rfl, ?_⟩
    exact Nat.add_le_add_right (hw.now.trans hwt.now) _
  · exact ⟨o, .inl rfl, .nothing ht₂, fun v _ _ => trivial⟩

theorem good_destroySession (hash_inj : Function.Injective hash) (hb : Sound hash began)
    (hw : Later began w) :
    (sessionPromise hash).Good (fun _ _ _ _ v => Told began v (.logout token) .done)
      (destroySession hash token) o ws ks w := by
  unfold destroySession
  split
  · rename_i hempty
    exact .pure fun v _ _ l hl htoken => absurd (htoken.trans hempty) (hb.drawn l hl)
  · intro t ht hwt _
    refine ⟨o, .inl rfl, commits (sound_logout hash_inj ht token), fun v _ hv => ?_⟩
    refine Told.stable (fun l hl htoken => ?_) hv
    have hl : l ∈ t.logins := hwt.logins (hw.logins hl)
    simp [Writable.apply, SessionWrite.apply, hl, htoken]

theorem good_invalidateAllSessions (hw : Later began w) :
    (sessionPromise hash).Good (fun _ _ _ _ v => Told began v .invalidate .done)
      invalidateAllSessions o ws ks w := by
  intro t ht hwt _
  refine ⟨o, .inl rfl, commits (sound_deleteAll ht), fun v _ hv => ?_⟩
  refine Told.stable (fun l hl => ?_) hv
  have hl : l ∈ t.logins := hwt.logins (hw.logins hl)
  simp [Writable.apply, SessionWrite.apply, hl]

/-! ## Whole runs -/

def SessionCall.run (hash : String → String) : SessionCall → SessionRun SessionAnswer
  | .login userId token => do
    let login ← createSession hash userId token
    pure (.session login)
  | .logout token => do
    let _ ← destroySession hash token
    pure .done
  | .invalidate => do
    let _ ← invalidateAllSessions
    pure .done
  | .request token => do
    let user ← getSessionUser hash token
    pure (.user user)

/-- A call, with the state it began in. -/
def SessionCall.program (hash : String → String) (call : SessionCall) :
    SessionRun (SessionsWorld × SessionCall × SessionAnswer) := do
  let began ← Process.look id
  let answer ← call.run hash
  pure (began, call, answer)

/-- The clock goes on, and users come, change and go. -/
inductive BesideSessions (s : SessionsWorld) : SessionsWorld → Prop where
  | clock (now : Nat) : s.now ≤ now → BesideSessions s { s with now }
  | users (users : List AppUser) : BesideSessions s (s.withUsers users)

def SessionsReach (hash : String → String) (w : SessionsWorld)
    (c : World SessionsWorld SessionWrite Empty Drawn
      (SessionsWorld × SessionCall × SessionAnswer)) : Prop :=
  World.Reaches (fun p => ∃ call : SessionCall, p = call.program hash) BesideSessions
    (fun _ => True) w c

theorem sound_clock (h : Sound hash w) {now : Nat} (hnow : w.now ≤ now) :
    Sound hash { w with now } :=
  ⟨h.rows, fun l hl hlive hexpires => h.present l hl hlive (hnow.trans hexpires), h.users,
    h.values, h.tokens, h.drawn, h.past⟩

theorem BesideSessions.kept (h : BesideSessions s t) (hs : Sound hash s) :
    Sound hash t ∧ Later s t := by
  cases h with
  | clock now hnow => exact ⟨sound_clock hs hnow, hnow, List.Subset.refl _, List.Subset.refl _⟩
  | users users => exact ⟨sound_withUsers hs users, later_withUsers s users⟩

theorem good_run (hash_inj : Function.Injective hash) (hb : Sound hash began)
    (hw : Later began w) (call : SessionCall) :
    (sessionPromise hash).Good (fun a _ _ _ v => Told began v call a) (call.run hash) o ws ks
      w := by
  cases call with
  | login userId token =>
    exact .bind ((good_createSession hw).mono fun _ _ _ _ _ h => .pure fun _ _ hv => h.stable hv)
  | logout token =>
    exact .bind ((good_destroySession hash_inj hb hw).mono fun _ _ _ _ _ h =>
      .pure fun _ _ hv => h.stable hv)
  | invalidate =>
    exact .bind ((good_invalidateAllSessions hw).mono fun _ _ _ _ _ h =>
      .pure fun _ _ hv => h.stable hv)
  | request token =>
    exact .bind ((good_getSessionUser hash_inj hb hw).mono fun _ _ _ _ _ h =>
      .pure fun _ _ hv => h.stable hv)

/-- However logins, log-outs and requests interleave, statement by statement, and wherever they
stop: a stored session is that of a login that was not ended, every login that is still good has
its session, and whoever is let in brought the token of a login that was good when his request
began. -/
theorem sessions_sound (hash_inj : Function.Injective hash) (hw : Sound hash w)
    {c : World SessionsWorld SessionWrite Empty Drawn
      (SessionsWorld × SessionCall × SessionAnswer)} (h : SessionsReach hash w c) :
    Sound hash c.committed ∧ ∀ n x began call answer, c.running n = some x →
      x.proc = .done (began, call, answer) → Told began c.committed call answer := by
  let Ends (a : SessionsWorld × SessionCall × SessionAnswer) (_ : Option Empty)
      (_ : List SessionWrite) (_ : List Empty) (v : SessionsWorld) : Prop := Told a.1 v a.2.1 a.2.2
  have hsafe : ∃ owner, World.Fenced (sessionPromise hash) Ends c owner := by
    refine World.Reaches.fenced hw ?_ (fun s t hs ht => ?_) h
    · rintro _ ⟨call, rfl⟩ s hs
      refine .bind (.look fun t ht _ t₁ _ hr => .bind ((good_run hash_inj ht hr call).mono ?_))
      exact fun _ _ _ _ _ htold => .pure fun _ _ hv => htold.stable hv
    · obtain ⟨hsound, hlater⟩ := BesideSessions.kept ht hs
      exact ⟨hsound, fun _ hk => hk, fun _ _ => hlater⟩
  obtain ⟨owner, hsafe⟩ := hsafe
  refine ⟨hsafe.inv, fun n x began call answer hi hdone => ?_⟩
  have hgood := hsafe.good n x hi
  rw [hdone] at hgood
  exact hgood c.committed hsafe.inv (Later.refl _)

/-! ### In and out -/

def marked (token : String) : String := "#" ++ token

theorem marked_injective : Function.Injective marked := fun _ _ h => by simpa [marked] using h

def oneUser : SessionsWorld where
  users := [⟨1, "Sara", none, none, "user"⟩]

theorem oneUser_sound : Sound marked oneUser where
  rows _ hr := by cases hr
  present _ hl := by cases hl
  users _ hr := by cases hr
  values := List.nodup_nil
  tokens := List.nodup_nil
  drawn _ hl := by cases hl
  past := List.Subset.refl _

/-- A user logs in, and out again. -/
theorem sessions_sound_logout : ∃ c d, SessionsReach marked oneUser c ∧
    c.committed.sessions.map (·.token) = ["#k"] ∧ Sound marked c.committed ∧
    SessionsReach marked oneUser d ∧ d.committed.sessions = [] ∧ Sound marked d.committed := by
  have hidle : SessionsReach marked oneUser (World.idle oneUser) := .idle
  obtain ⟨c, hc, hquiet, hlogin⟩ := World.Reaches.alone hidle (fun _ => rfl)
    ⟨.login 1 "k", rfl⟩
    ⟨fun _ _ => trivial, fun _ _ => trivial, fun a _ => by cases a; decide, trivial⟩
  obtain ⟨d, hd, -, hlogout⟩ := World.Reaches.alone hc hquiet ⟨.logout "k", rfl⟩
    ⟨fun _ _ => trivial, fun _ _ => trivial, trivial⟩
  refine ⟨c, d, hc, ?_, (sessions_sound marked_injective oneUser_sound hc).1, hd, ?_,
    (sessions_sound marked_injective oneUser_sound hd).1⟩
  · rw [hlogin]
    decide
  · rw [hlogout, hlogin]
    decide

end Sessions

end Pwos
