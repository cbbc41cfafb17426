import Pwos.BankImport.Inbox
import Pwos.Domain.Recurrence

/-!
# The inbox under any interleaving

Devices come and go, messages arrive, are confirmed and rejected, all at once. No user has more than
five devices or a hundred waiting messages, a message is kept once, and its text as long as it waits
(`sms_inbox_sound`).
-/

namespace Pwos

namespace BankInbox

/-! ## What stays of a row -/

/-- What no statement changes. -/
def SmsConnection.ident (k : SmsConnection) : Uuid × Uuid × String × Nat :=
  (k.id, k.userId, k.tokenHash, k.createdAt)

def InboxMessage.ident (m : InboxMessage) : Uuid × (Uuid × Fingerprint) × Uuid × Nat × Nat :=
  (m.id, (m.userId, m.fingerprint), m.connectionId, m.sentAt, m.receivedAt)

/-- The key of `bank_sms_inbox_replay_idx`. -/
def InboxMessage.key (m : InboxMessage) : Uuid × Fingerprint := (m.userId, m.fingerprint)

section Rows
variable (env : SmsEnv)

/-- The text is kept while the message waits, and an entry is named once it is confirmed. -/
structure InboxMessage.Kept (m : InboxMessage) : Prop where
  secret : m.encryptedPayload.isSome = m.waits
  stored : ∀ text, m.encryptedPayload = some text →
    ∃ payload, text = env.encrypt m.userId payload ∧ m.fingerprint = payload.fingerprint m.sentAt
  entry : m.entryId.isSome ↔ m.status = .confirmed

/-- The message came over a connection of its user, and was sent after that was made. -/
def InboxMessage.Through (m : InboxMessage) (w : SmsWorld) : Prop :=
  ∃ tokenHash createdAt, createdAt ≤ m.sentAt ∧
    (m.connectionId, m.userId, tokenHash, createdAt) ∈ w.connections.map (·.ident)

structure Sound (w : SmsWorld) : Prop where
  connections : (w.connections.map (·.id)).Nodup
  tokens : (w.connections.map (·.tokenHash)).Nodup
  messages : (w.inbox.map (·.id)).Nodup
  once : (w.inbox.map (·.key)).Nodup
  devices : ∀ u, (w.live u).length ≤ MAX_CONNECTIONS
  waiting : ∀ u, (w.waiting u).length ≤ MAX_WAITING
  through : ∀ m ∈ w.inbox, m.Through w
  kept : ∀ m ∈ w.inbox, m.Kept env

/-- What others leave alone: no row goes, and for a user, an id or a token that is held, none
comes. -/
structure Spares (ks : List SmsRow) (s t : SmsWorld) : Prop where
  connections : s.connections.map (·.ident) ⊆ t.connections.map (·.ident)
  messages : s.inbox.map (·.ident) ⊆ t.inbox.map (·.ident)
  user : ∀ u, .user u ∈ ks → (t.live u).length ≤ (s.live u).length ∧
    (t.waiting u).length ≤ (s.waiting u).length ∧
    ∀ f, (u, f) ∈ t.inbox.map (·.key) → (u, f) ∈ s.inbox.map (·.key)
  connection : ∀ i, .connection i ∈ ks → i ∈ t.connections.map (·.id) →
    i ∈ s.connections.map (·.id)
  token : ∀ h, .token h ∈ ks → h ∈ t.connections.map (·.tokenHash) →
    h ∈ s.connections.map (·.tokenHash)
  message : ∀ i, .message i ∈ ks → i ∈ t.inbox.map (·.id) → i ∈ s.inbox.map (·.id)

theorem Spares.refl (ks : List SmsRow) (s : SmsWorld) : Spares ks s s :=
  ⟨List.Subset.refl _, List.Subset.refl _, fun _ _ => ⟨le_rfl, le_rfl, fun _ h => h⟩,
    fun _ _ h => h, fun _ _ h => h, fun _ _ h => h⟩

theorem Spares.trans {ks : List SmsRow} {s t v : SmsWorld} (h : Spares ks s t)
    (h' : Spares ks t v) : Spares ks s v where
  connections := List.Subset.trans h.connections h'.connections
  messages := List.Subset.trans h.messages h'.messages
  user u hu := by
    obtain ⟨hlive, hwaiting, hkeys⟩ := h.user u hu
    obtain ⟨hlive', hwaiting', hkeys'⟩ := h'.user u hu
    exact ⟨hlive'.trans hlive, hwaiting'.trans hwaiting, fun f hf => hkeys f (hkeys' f hf)⟩
  connection i hi hid := h.connection i hi (h'.connection i hi hid)
  token i hi hid := h.token i hi (h'.token i hi hid)
  message i hi hid := h.message i hi (h'.message i hi hid)

theorem Spares.mono {ks js : List SmsRow} {s t : SmsWorld} (hsub : ks ⊆ js)
    (h : Spares js s t) : Spares ks s t :=
  ⟨h.connections, h.messages, fun u hu => h.user u (hsub hu),
    fun i hi => h.connection i (hsub hi), fun i hi => h.token i (hsub hi),
    fun i hi => h.message i (hsub hi)⟩

def inboxPromise : FencedPromise SmsWorld SmsRow Empty Empty where
  Assumes _ := True
  Inv := Sound env
  Taken _ _ := False
  Rely _ := Spares
  refl _ := Spares.refl
  trans := Spares.trans
  mono := Spares.mono

end Rows

variable {env : SmsEnv} {s t w : SmsWorld} {ks : List SmsRow} {u i : Uuid} {o : Option Empty}

theorem has_iff {f : Fingerprint} : w.has u f = true ↔ (u, f) ∈ w.inbox.map (·.key) := by
  simp [SmsWorld.has, InboxMessage.key]

/-! ## Statements that add no row -/

/-- Nothing comes or goes, and nothing becomes live or waits that did not. -/
structure Tames (env : SmsEnv) (s t : SmsWorld) : Prop where
  connections : t.connections.map (·.ident) = s.connections.map (·.ident)
  messages : t.inbox.map (·.ident) = s.inbox.map (·.ident)
  live : ∀ u, (t.live u).length ≤ (s.live u).length
  waiting : ∀ u, (t.waiting u).length ≤ (s.waiting u).length
  kept : (∀ m ∈ s.inbox, m.Kept env) → ∀ m ∈ t.inbox, m.Kept env

theorem Tames.trans {v : SmsWorld} (h : Tames env s t) (h' : Tames env t v) : Tames env s v :=
  ⟨h'.connections.trans h.connections, h'.messages.trans h.messages,
    fun u => (h'.live u).trans (h.live u), fun u => (h'.waiting u).trans (h.waiting u),
    fun hs => h'.kept (h.kept hs)⟩

theorem map_of_map_eq {α β ι : Type} {f : α → ι} {g : ι → β} {xs ys : List α}
    (h : xs.map f = ys.map f) : xs.map (fun x => g (f x)) = ys.map fun x => g (f x) := by
  have hmap := congrArg (List.map g) h
  rwa [List.map_map, List.map_map] at hmap

namespace Tames
variable (h : Tames env s t)
include h

theorem ids : t.inbox.map (·.id) = s.inbox.map (·.id) :=
  map_of_map_eq (g := fun x => x.1) h.messages

theorem keys : t.inbox.map (·.key) = s.inbox.map (·.key) :=
  map_of_map_eq (g := fun x => x.2.1) h.messages

theorem connectionIds : t.connections.map (·.id) = s.connections.map (·.id) :=
  map_of_map_eq (g := fun x => x.1) h.connections

theorem tokens : t.connections.map (·.tokenHash) = s.connections.map (·.tokenHash) :=
  map_of_map_eq (g := fun x => x.2.2.1) h.connections

end Tames

/-- Rows that are rewritten: what is counted is no more. -/
theorem length_filter_map_le {α : Type} {f : α → α} {p : α → Bool} {xs : List α}
    (h : ∀ x ∈ xs, p (f x) = true → p x = true) :
    ((xs.map f).filter p).length ≤ (xs.filter p).length := by
  rw [← List.countP_eq_length_filter, ← List.countP_eq_length_filter, List.countP_map]
  exact List.countP_mono_left h

theorem Tames.through (h : Tames env s t) (hs : ∀ m ∈ s.inbox, m.Through s) :
    ∀ m ∈ t.inbox, m.Through t := by
  intro m hm
  obtain ⟨m', hm', hident⟩ := List.mem_map.mp (h.messages ▸ List.mem_map_of_mem hm)
  obtain ⟨tokenHash, createdAt, hle, hmem⟩ := hs m' hm'
  simp only [InboxMessage.ident, Prod.mk.injEq] at hident
  obtain ⟨-, ⟨huser, -⟩, hconnection, hsent, -⟩ := hident
  refine ⟨tokenHash, createdAt, hsent ▸ hle, ?_⟩
  rwa [h.connections, ← hconnection, ← huser]

theorem Tames.sound (h : Tames env s t) (hs : Sound env s) : Sound env t where
  connections := h.connectionIds ▸ hs.connections
  tokens := h.tokens ▸ hs.tokens
  messages := h.ids ▸ hs.messages
  once := h.keys ▸ hs.once
  devices u := (h.live u).trans (hs.devices u)
  waiting u := (h.waiting u).trans (hs.waiting u)
  through := h.through hs.through
  kept := h.kept hs.kept

theorem Tames.spares (h : Tames env s t) (ks : List SmsRow) : Spares ks s t where
  connections := h.connections ▸ List.Subset.refl _
  messages := h.messages ▸ List.Subset.refl _
  user u _ := ⟨h.live u, h.waiting u, fun _ hf => h.keys ▸ hf⟩
  connection _ _ hi := h.connectionIds ▸ hi
  token _ _ hi := h.tokens ▸ hi
  message _ _ hi := h.ids ▸ hi

theorem tames_connections {f : SmsConnection → SmsConnection} (hf : ∀ k, (f k).ident = k.ident)
    (hlive : ∀ k, (f k).revokedAt = none → k.revokedAt = none) :
    Tames env s { s with connections := s.connections.map f } where
  connections := by simp [hf]
  messages := rfl
  live u := by
    refine length_filter_map_le fun k _ hk => ?_
    have hident := hf k
    simp only [SmsConnection.ident, Prod.mk.injEq] at hident
    simp only [Bool.and_eq_true, decide_eq_true_eq] at hk ⊢
    exact ⟨hident.2.1 ▸ hk.1, hlive k hk.2⟩
  waiting _ := le_rfl
  kept h := h

theorem tames_revoke (time : Nat) : Tames env s ((SmsWrite.revoke u i time).apply s) := by
  refine tames_connections (fun k => ?_) fun k hk => ?_
  · split <;> rfl
  · split at hk
    · cases hk
    · exact hk

theorem tames_received (time : Nat) : Tames env s ((SmsWrite.received i time).apply s) := by
  refine tames_connections (fun k => ?_) fun k hk => ?_
  · split <;> rfl
  · split at hk <;> exact hk

theorem MessageChange.ident_set (c : MessageChange) (m : InboxMessage) :
    (c.set m).ident = m.ident := by cases c <;> rfl

/-- A message that waits afterwards waited before: claims and releases are of waiting ones. -/
theorem MessageChange.waits_of_set {c : MessageChange} {m : InboxMessage} {now : Nat}
    (h : c.admits now m = true) (hw : (c.set m).waits = true) : m.waits = true := by
  cases c <;> simp_all [MessageChange.admits, MessageChange.set, InboxMessage.waits]; tauto

theorem MessageChange.kept_set {c : MessageChange} {m : InboxMessage} {now : Nat}
    (h : c.admits now m = true) (hm : m.Kept env) : (c.set m).Kept env := by
  obtain ⟨hsecret, hstored, hentry⟩ := hm
  cases c with
  | reject =>
    refine ⟨rfl, fun _ h => (by cases h), ?_⟩
    simp_all [MessageChange.admits, MessageChange.set]
  | claim time =>
    have hwaits : m.waits = true := waits_of_set h rfl
    refine ⟨hsecret.trans hwaits, hstored, ?_⟩
    simp_all [MessageChange.set, InboxMessage.waits]
    grind
  | release time =>
    have hwaits : m.waits = true := waits_of_set h rfl
    refine ⟨hsecret.trans hwaits, hstored, ?_⟩
    simp_all [MessageChange.set, MessageChange.admits]
  | replay entryId => exact ⟨rfl, fun _ h => (by cases h), by simp [MessageChange.set]⟩
  | confirm entryId => exact ⟨rfl, fun _ h => (by cases h), by simp [MessageChange.set]⟩

theorem tames_change (c : MessageChange) : Tames env s ((SmsWrite.change u i c).apply s) where
  connections := rfl
  messages := by
    simp only [SmsWrite.apply, List.map_map]
    refine List.map_congr_left fun m _ => ?_
    simp only [Function.comp_apply]
    split
    · exact c.ident_set m
    · rfl
  live _ := le_rfl
  waiting u := by
    refine length_filter_map_le fun m _ hm => ?_
    split at hm
    · rename_i habout
      simp only [MessageChange.isAbout, Bool.and_eq_true] at habout
      simp only [Bool.and_eq_true, decide_eq_true_eq] at hm ⊢
      have huser : (c.set m).userId = m.userId := congrArg (·.2.1.1) (c.ident_set m)
      exact ⟨huser ▸ hm.1, c.waits_of_set habout.2 hm.2⟩
    · exact hm
  kept h m hm := by
    obtain ⟨m', hm', rfl⟩ := List.mem_map.mp hm
    split
    · rename_i habout
      simp only [MessageChange.isAbout, Bool.and_eq_true] at habout
      exact MessageChange.kept_set habout.2 (h m' hm')
    · exact h m' hm'

theorem Tames.commits {ws : List SmsWrite} (h : Tames env s (applyAll ws s)) (hs : Sound env s) :
    (inboxPromise env).Commits o ws ks s :=
  ⟨h.sound hs, fun _ hi => hi, fun _ others _ _ => h.spares others⟩

/-! ## Statements that add a row -/

section Connect
variable {row : SmsConnection}

theorem live_insertConnection (u : Uuid) (w : SmsWorld) :
    ((SmsWrite.insertConnection row).apply w).live u =
      w.live u ++ if row.userId = u ∧ row.revokedAt = none then [row] else [] := by
  simp only [SmsWorld.live, SmsWrite.apply, List.filter_append]
  congr 1
  by_cases h : row.userId = u ∧ row.revokedAt = none <;> simp [h]

theorem nodup_concat {α : Type} {xs : List α} {x : α} (h : xs.Nodup) (hx : x ∉ xs) :
    (xs ++ [x]).Nodup := List.concat_eq_append ▸ h.concat hx

theorem sound_insertConnection (hs : Sound env w)
    (hlive : (w.live row.userId).length < MAX_CONNECTIONS)
    (hid : row.id ∉ w.connections.map (·.id))
    (htoken : row.tokenHash ∉ w.connections.map (·.tokenHash)) :
    Sound env ((SmsWrite.insertConnection row).apply w) where
  connections := by
    simpa [SmsWrite.apply] using nodup_concat hs.connections hid
  tokens := by
    simpa [SmsWrite.apply] using nodup_concat hs.tokens htoken
  messages := hs.messages
  once := hs.once
  devices u := by
    have hdevices := hs.devices u
    rw [live_insertConnection, List.length_append]
    split
    · rename_i h
      obtain ⟨rfl, -⟩ := h
      exact hlive
    · simpa using hdevices
  waiting := hs.waiting
  through m hm := by
    obtain ⟨tokenHash, createdAt, hle, hmem⟩ := hs.through m hm
    refine ⟨tokenHash, createdAt, hle, ?_⟩
    simp only [SmsWrite.apply, List.map_append]
    exact List.mem_append_left _ hmem
  kept := hs.kept

/-- A new device, counted under the lock of its user. -/
theorem commits_insertConnection (hs : Sound env w)
    (hlive : (w.live row.userId).length < MAX_CONNECTIONS)
    (hid : row.id ∉ w.connections.map (·.id))
    (htoken : row.tokenHash ∉ w.connections.map (·.tokenHash)) (huser : .user row.userId ∈ ks)
    (hidLock : .connection row.id ∈ ks) (htokenLock : .token row.tokenHash ∈ ks) :
    (inboxPromise env).Commits o [.insertConnection row] ks w := by
  refine ⟨sound_insertConnection hs hlive hid htoken, fun _ hi => hi, fun _ others _ hothers => ?_⟩
  have hnot : ∀ k, k ∈ others → k ∈ ks → False := hothers
  refine ⟨?_, List.Subset.refl _, fun u hu => ⟨?_, le_rfl, fun _ hf => hf⟩, fun i hi hmem => ?_,
    fun h hh hmem => ?_, fun _ _ hmem => hmem⟩
  · simp only [applyAll_cons, applyAll_nil, Writable.apply, SmsWrite.apply, List.map_append]
    exact List.subset_append_left _ _
  · have hne : row.userId ≠ u := by
      rintro rfl
      exact hnot _ hu huser
    have hlive : ((SmsWrite.insertConnection row).apply w).live u = _ := live_insertConnection u w
    rw [if_neg fun h => hne h.1, List.append_nil] at hlive
    exact (congrArg List.length hlive).le
  · simp only [applyAll_cons, applyAll_nil, Writable.apply, SmsWrite.apply, List.map_append,
      List.mem_append, List.map_cons, List.map_nil, List.mem_singleton] at hmem
    rcases hmem with hmem | rfl
    · exact hmem
    · exact (hnot _ hi hidLock).elim
  · simp only [applyAll_cons, applyAll_nil, Writable.apply, SmsWrite.apply, List.map_append,
      List.mem_append, List.map_cons, List.map_nil, List.mem_singleton] at hmem
    rcases hmem with hmem | rfl
    · exact hmem
    · exact (hnot _ hh htokenLock).elim

end Connect

section Arrive
variable {row : InboxMessage}

theorem waiting_insertMessage (u : Uuid) (w : SmsWorld) :
    ((SmsWrite.insertMessage row).apply w).waiting u =
      w.waiting u ++ if row.userId = u ∧ row.waits = true then [row] else [] := by
  simp only [SmsWorld.waiting, SmsWrite.apply, List.filter_append]
  congr 1
  by_cases h : row.userId = u ∧ row.waits = true <;> simp [h]

theorem sound_insertMessage (hs : Sound env w)
    (hwaiting : (w.waiting row.userId).length < MAX_WAITING) (hid : row.id ∉ w.inbox.map (·.id))
    (hkey : row.key ∉ w.inbox.map (·.key)) (hthrough : row.Through w) (hkept : row.Kept env) :
    Sound env ((SmsWrite.insertMessage row).apply w) where
  connections := hs.connections
  tokens := hs.tokens
  messages := by
    simpa [SmsWrite.apply] using nodup_concat hs.messages hid
  once := by
    simpa [SmsWrite.apply] using nodup_concat hs.once hkey
  devices := hs.devices
  waiting u := by
    have h := hs.waiting u
    rw [waiting_insertMessage, List.length_append]
    split
    · rename_i hu
      obtain ⟨rfl, -⟩ := hu
      exact hwaiting
    · simpa using h
  through m hm := by
    rcases List.mem_append.mp hm with hm | hm
    · exact hs.through m hm
    · exact List.mem_singleton.mp hm ▸ hthrough
  kept m hm := by
    rcases List.mem_append.mp hm with hm | hm
    · exact hs.kept m hm
    · exact List.mem_singleton.mp hm ▸ hkept

variable (row) in
/-- A new message, counted and looked up under the lock of its user. -/
theorem commits_insertMessage (hs : Sound env w)
    (hwaiting : (w.waiting row.userId).length < MAX_WAITING) (hid : row.id ∉ w.inbox.map (·.id))
    (hkey : row.key ∉ w.inbox.map (·.key)) (hthrough : row.Through w) (hkept : row.Kept env)
    (huser : .user row.userId ∈ ks) (hidLock : .message row.id ∈ ks) (now : Nat) :
    (inboxPromise env).Commits o [.insertMessage row, .received i now] ks w := by
  have htames : Tames env ((SmsWrite.insertMessage row).apply w) _ := tames_received (i := i) now
  refine ⟨htames.sound (sound_insertMessage hs hwaiting hid hkey hthrough hkept), fun _ hi => hi,
    fun _ others _ hothers => Spares.trans ?_ (htames.spares others)⟩
  have hnot : ∀ k, k ∈ others → k ∈ ks → False := hothers
  refine ⟨List.Subset.refl _, ?_, fun u hu => ?_, fun _ _ hmem => hmem, fun _ _ hmem => hmem,
    fun j hj hmem => ?_⟩
  · simp only [SmsWrite.apply, List.map_append]
    exact List.subset_append_left _ _
  · have hne : row.userId ≠ u := by
      rintro rfl
      exact hnot _ hu huser
    have hwaiting : ((SmsWrite.insertMessage row).apply w).waiting u = _ :=
      waiting_insertMessage u w
    rw [if_neg fun h => hne h.1, List.append_nil] at hwaiting
    refine ⟨le_rfl, (congrArg List.length hwaiting).le, fun f hf => ?_⟩
    simp only [SmsWrite.apply, List.map_append, List.mem_append, List.map_cons, List.map_nil,
      List.mem_singleton] at hf
    rcases hf with hf | hf
    · exact hf
    · exact absurd (congrArg Prod.fst hf).symm hne
  · simp only [SmsWrite.apply, List.map_append, List.mem_append, List.map_cons, List.map_nil,
      List.mem_singleton] at hmem
    rcases hmem with hmem | rfl
    · exact hmem
    · exact (hnot _ hj hidLock).elim

end Arrive

/-! ## Calls that tell nothing -/

abbrev Harmless {α : Type} (env : SmsEnv) (p : SmsRun α) : Prop := (inboxPromise env).Harmless p

namespace Harmless

theorem requireSmsSetup : Harmless env (requireSmsSetup u) := .bind (.look _) fun _ => .pure _

theorem changeMessage (c : MessageChange) : Harmless env (changeMessage u i c) :=
  .auto fun _ _ hs _ => Tames.commits (tames_change c) hs

theorem revokeIphoneConnection : Harmless env (revokeIphoneConnection u i) :=
  .andThen requireSmsSetup fun _ => .auto fun _ s hs _ => Tames.commits (tames_revoke s.now) hs

theorem rejectBankSms : Harmless env (rejectBankSms u i) := by
  refine .andThen requireSmsSetup fun _ => .bind (.look _) fun row => ?_
  split
  · exact .pure _
  · exact .bind (changeMessage _) fun _ => .pure _

theorem linkMessage (transfer : ExistingTransfer) :
    Harmless env (.transaction (linkMessage u i transfer)) := by
  intro o s
  refine .tx_lock fun t ht _ => ?_
  split
  · exact .tx_pure fun t₁ ht₁ _ => ⟨.nothing ht₁, fun _ _ _ => ⟨rfl, rfl⟩⟩
  split
  · exact .tx_pure fun t₁ ht₁ _ => ⟨.nothing ht₁, fun _ _ _ => ⟨rfl, rfl⟩⟩
  split
  · exact .tx_pure fun t₁ ht₁ _ => ⟨.nothing ht₁, fun _ _ _ => ⟨rfl, rfl⟩⟩
  split
  · exact .tx_pure fun t₁ ht₁ _ => ⟨.nothing ht₁, fun _ _ _ => ⟨rfl, rfl⟩⟩
  refine .tx_write fun t₁ _ _ => .tx_pure fun t₂ ht₂ _ => ⟨?_, fun _ _ _ => ⟨rfl, rfl⟩⟩
  exact Tames.commits (tames_change _) ht₂

theorem confirmMessage (found : ConfirmFindings) : Harmless env (confirmMessage found u i) := by
  refine .andThen requireSmsSetup fun _ => .bind (.look _) fun row => ?_
  split
  · exact .pure _
  split
  · exact linkMessage _
  split
  · exact .bind (changeMessage _) fun _ => .pure _
  split
  · exact .pure _
  refine .bind (.look _) fun time => .bind (changeMessage _) fun claimed => ?_
  split
  · exact .pure _
  split
  · exact .bind (changeMessage _) fun _ => .bind (changeMessage _) fun _ => .pure _
  · exact .bind (changeMessage _) fun _ => .pure _

/-- The devices are counted under the lock, and nobody else adds one until the commit. -/
theorem insertConnection (name token : String) :
    Harmless env (.transaction (insertConnection env u name token i)) := by
  intro o s
  refine .tx_read fun t₀ _ _ => .tx_lock fun t₁ _ _ => .tx_read fun t₂ _ _ => ?_
  refine .tx_require (fun _ _ _ => ⟨rfl, rfl⟩) fun hlive => ?_
  refine .tx_insert (fun _ _ _ _ _ _ _ => ⟨rfl, rfl⟩) fun t₃ _ hr₃ hfresh => ?_
  refine .tx_pure fun t₄ ht₄ hr₄ => ⟨?_, fun _ _ _ => ⟨rfl, rfl⟩⟩
  have huser := hr₄.user u (by simp)
  have hlive' := hr₃.user u (by simp)
  refine commits_insertConnection ht₄ (huser.1.trans hlive'.1 |>.trans_lt hlive) (fun hid => ?_)
    (fun htoken => ?_) (by simp) (by simp) (by simp)
  · obtain ⟨k, hk, hki⟩ := List.mem_map.mp (hr₄.connection i (by simp) hid)
    exact (hfresh k hk).1 hki
  · obtain ⟨k, hk, hkt⟩ := List.mem_map.mp (hr₄.token _ (by simp) htoken)
    exact (hfresh k hk).2 hkt

theorem createSmsConnection (name token : String) :
    Harmless env (createSmsConnection env u name token i) := by
  refine .andThen requireSmsSetup fun _ => ?_
  split
  · exact insertConnection _ _
  · exact .pure _

end Harmless

/-! ## What a device is told -/

/-- The message is in the inbox of the user the token belongs to. -/
def Arrived (env : SmsEnv) (token : String) (payload : SmsPayload) (w : SmsWorld) : Prop :=
  ∃ sentAt ∈ payload.sentAt, ∃ k ∈ w.connections, k.tokenHash = env.hashSmsToken token ∧
    (k.userId, payload.fingerprint sentAt) ∈ w.inbox.map (·.key)

/-- An answer is kept to, and the index never has to refuse. -/
def Told (env : SmsEnv) (token : String) (payload : SmsPayload) (r : Except SmsFailure Bool)
    (w : SmsWorld) : Prop :=
  r ≠ .error (.conflict "bank_sms_inbox_replay_idx") ∧
    ∀ duplicate, r = .ok duplicate → Arrived env token payload w

theorem Spares.known {k : SmsConnection} (h : Spares ks s t) (hk : k ∈ s.connections) :
    ∃ k' ∈ t.connections, k'.ident = k.ident :=
  List.mem_map.mp (h.connections (List.mem_map_of_mem hk))

theorem Arrived.stable {token : String} {payload : SmsPayload} (h : Arrived env token payload s)
    (hr : Spares ks s t) : Arrived env token payload t := by
  obtain ⟨sentAt, hsent, k, hk, htoken, hkey⟩ := h
  obtain ⟨k', hk', hident⟩ := hr.known hk
  simp only [SmsConnection.ident, Prod.mk.injEq] at hident
  obtain ⟨-, huser, hhash, -⟩ := hident
  obtain ⟨m, hm, hmkey⟩ := List.mem_map.mp hkey
  obtain ⟨m', hm', hmident⟩ := List.mem_map.mp (hr.messages (List.mem_map_of_mem hm))
  refine ⟨sentAt, hsent, k', hk', hhash.trans htoken, List.mem_map.mpr ⟨m', hm', ?_⟩⟩
  rw [huser, ← hmkey]
  exact congrArg (·.2.1) hmident

theorem Told.error {token : String} {payload : SmsPayload} {e : SmsFailure}
    (h : e ≠ .conflict "bank_sms_inbox_replay_idx") : Told env token payload (.error e) w :=
  ⟨fun he => h (Except.error.inj he), fun _ he => by cases he⟩

theorem mem_of_byToken {hash : String} {k : SmsConnection} (h : w.byToken hash = some k) :
    k ∈ w.connections ∧ k.tokenHash = hash := by
  have hfound := List.find?_some h
  simp only [Bool.and_eq_true, decide_eq_true_eq] at hfound
  exact ⟨List.mem_of_find?_eq_some h, hfound.1⟩

theorem kept_new {id userId connectionId : Uuid} (payload : SmsPayload) (sentAt receivedAt : Nat) :
    InboxMessage.Kept env
      { id, userId, connectionId, encryptedPayload := some (env.encrypt userId payload)
        fingerprint := payload.fingerprint sentAt, sentAt, receivedAt } where
  secret := rfl
  stored text h := ⟨payload, (Option.some.inj h).symm, rfl⟩
  entry := by simp

section Store
variable {token : String} {payload : SmsPayload} {sentAt startedAt now : Nat}
  {connection : SmsConnection}

/-- The message is looked up and counted under the lock of the user, and nobody else brings one
until the commit. -/
theorem good_insertMessage (hsent : sentAt ∈ payload.sentAt) (hmem : connection ∈ w.connections)
    (hhash : connection.tokenHash = env.hashSmsToken token)
    (hafter : connection.createdAt ≤ sentAt) :
    (inboxPromise env).Good (fun r _ ws ks v => (ws = [] ∧ ks = []) ∧ Told env token payload r v)
      (.transaction (insertMessage env connection payload sentAt startedAt now i)) o [] ks w := by
  have harrived : ∀ {v}, Spares [] w v →
      (connection.userId, payload.fingerprint sentAt) ∈ v.inbox.map (·.key) →
      Arrived env token payload v := by
    intro v hv hkey
    obtain ⟨k, hk, hident⟩ := hv.known hmem
    simp only [SmsConnection.ident, Prod.mk.injEq] at hident
    exact ⟨sentAt, hsent, k, hk, hident.2.2.1.trans hhash, hident.2.1 ▸ hkey⟩
  refine .tx_lock fun t₁ _ hr₁ => .tx_read fun t₂ _ hr₂ => ?_
  have hr₂ : Spares [] w t₂ := (hr₁.mono (by simp)).trans (hr₂.mono (by simp))
  split
  · rename_i hprevious
    refine .tx_pure fun t₃ ht₃ hr₃ => ⟨.nothing ht₃, fun v _ hv => ⟨⟨rfl, rfl⟩, by simp, ?_⟩⟩
    rintro _ -
    exact ((harrived hr₂ (has_iff.mp hprevious)).stable hr₃).stable hv
  rename_i hnew
  have hkeys : ∀ {v}, Spares [.user connection.userId] t₂ v →
      (connection.userId, payload.fingerprint sentAt) ∉ v.inbox.map (·.key) := fun hv hkey =>
    hnew (has_iff.mpr ((hv.user _ List.mem_cons_self).2.2 _ hkey))
  refine .tx_read fun t₃ _ hr₃ => ?_
  refine .tx_require (fun _ _ _ => ⟨⟨rfl, rfl⟩, .error (by simp)⟩) fun hcount => ?_
  refine .tx_require (fun _ _ _ => ⟨⟨rfl, rfl⟩, .error (by simp)⟩) fun _ => ?_
  refine .tx_insert (fun _ _ _ _ _ _ _ => ⟨⟨rfl, rfl⟩, .error (by simp)⟩)
    fun t₄ _ hr₄ hfresh => ?_
  have hr₃ : Spares [.user connection.userId] t₂ t₃ := hr₃.mono (by simp)
  have hr₄ : Spares [.user connection.userId] t₃ t₄ := hr₄.mono (by simp)
  refine .tx_insert (fun t₅ _ hr₅ hhas => ?_) fun t₅ _ hr₅ _ => ?_
  · have hr₅ := (hr₃.trans hr₄).trans (hr₅.mono (by simp))
    exact absurd (Bool.eq_false_iff.mpr fun h => hkeys hr₅ (has_iff.mp h)) hhas
  refine .tx_write fun t₆ _ hr₆ => .tx_pure fun t₇ ht₇ hr₇ => ?_
  have hr₇ : Spares [.user connection.userId, .message i] t₄ t₇ :=
    ((hr₅.mono (by simp)).trans (hr₆.mono (by simp))).trans (hr₇.mono (by simp))
  have hheld : Spares [.user connection.userId] t₃ t₇ := hr₄.trans (hr₇.mono (by simp))
  have hall : Spares [] w t₇ := hr₂.trans ((hr₃.trans hheld).mono (by simp))
  have hwaiting := (hheld.user connection.userId List.mem_cons_self).2.1.trans_lt hcount
  have hid : i ∉ t₇.inbox.map (·.id) := by
    intro hid
    obtain ⟨m, hm, hmid⟩ := List.mem_map.mp (hr₇.message i (by simp) hid)
    exact hfresh m hm hmid
  obtain ⟨k, hk, hident⟩ := hall.known hmem
  let row : InboxMessage :=
    { id := i, userId := connection.userId, connectionId := connection.id
      encryptedPayload := some (env.encrypt connection.userId payload)
      fingerprint := payload.fingerprint sentAt, sentAt, receivedAt := startedAt }
  have hcommits : (inboxPromise env).Commits o [.insertMessage row, .received connection.id now]
      (ks ++ [.user connection.userId] ++ [.message i] ++ [] ++ []) t₇ :=
    commits_insertMessage row ht₇ hwaiting hid (hkeys (hr₃.trans hheld))
      ⟨connection.tokenHash, connection.createdAt, hafter, List.mem_map.mpr ⟨k, hk, hident⟩⟩
      (kept_new payload sentAt startedAt) (by simp [row]) (by simp [row]) now
  refine ⟨hcommits, fun v _ hv => ⟨⟨rfl, rfl⟩, by simp, ?_⟩⟩
  rintro _ -
  have hwrites := hcommits.rely none [] (by simp) (by simp)
  refine (harrived (hall.trans hwrites) ?_).stable hv
  simp [Writable.apply, SmsWrite.apply, InboxMessage.key, row]

theorem good_storeMessage (hsent : sentAt ∈ payload.sentAt) :
    (inboxPromise env).Good (fun r _ ws ks v => (ws = [] ∧ ks = []) ∧ Told env token payload r v)
      (.transaction (storeMessage env token payload sentAt now i)) o [] [] w := by
  refine .tx_read fun t₀ _ _ => .tx_lock fun t₁ _ _ => ?_
  split
  · exact .fails fun _ _ _ => ⟨⟨rfl, rfl⟩, .error (by simp)⟩
  rename_i connection hfound
  obtain ⟨hmem, hhash⟩ := mem_of_byToken hfound
  refine .tx_read fun t₂ _ hr₂ => ?_
  refine .tx_require (fun _ _ _ => ⟨⟨rfl, rfl⟩, .error (by simp)⟩) fun _ => ?_
  refine .tx_require (fun _ _ _ => ⟨⟨rfl, rfl⟩, .error (by simp)⟩) fun hafter => ?_
  refine .tx_require (fun _ _ _ => ⟨⟨rfl, rfl⟩, .error (by simp)⟩) fun _ => ?_
  exact (good_insertMessage hsent hmem hhash hafter).stable hr₂

theorem good_receiveSms :
    (inboxPromise env).Good (fun r _ _ _ v => Told env token payload r v)
      (receiveSms env token payload i) o [] [] w := by
  refine .bind (.look fun t _ _ t₁ _ _ => ?_)
  split
  · exact .pure fun _ _ _ => .error (by simp)
  rename_i sentAt hfilter
  split
  · exact .pure fun _ _ _ => .error (by simp)
  · refine (good_storeMessage ?_).mono fun _ _ _ _ _ h => h.2
    exact (Option.filter_eq_some_iff.mp hfilter).1

end Store

/-! ## Whole runs -/

inductive SmsCall where
  | connect (userId : Uuid) (name token : String) (id : Uuid)
  | revoke (userId id : Uuid)
  | receive (token : String) (payload : SmsPayload) (id : Uuid)
  | reject (userId id : Uuid)
  | confirm (found : ConfirmFindings) (userId id : Uuid)

inductive SmsAnswer where
  | connected (r : Except SmsFailure Uuid)
  | done (r : Except SmsFailure Bool)

def SmsCall.program (env : SmsEnv) (call : SmsCall) : SmsRun (SmsCall × SmsAnswer) := do
  match call with
  | .connect userId name token id =>
    let r ← createSmsConnection env userId name token id
    pure (call, .connected r)
  | .revoke userId id =>
    let r ← revokeIphoneConnection userId id
    pure (call, .done r)
  | .receive token payload id =>
    let r ← receiveSms env token payload id
    pure (call, .done r)
  | .reject userId id =>
    let r ← rejectBankSms userId id
    pure (call, .done r)
  | .confirm found userId id =>
    let r ← confirmMessage found userId id
    pure (call, .done r)

/-- The clock goes on, and setups are completed. -/
structure BesideInbox (s t : SmsWorld) : Prop where
  connections : t.connections = s.connections
  inbox : t.inbox = s.inbox

def SmsReaches (env : SmsEnv) (w : SmsWorld)
    (c : World SmsWorld SmsWrite SmsRow Empty (SmsCall × SmsAnswer)) : Prop :=
  World.Reaches (fun p => ∃ call : SmsCall, p = call.program env) BesideInbox (fun _ => True) w c

theorem BesideInbox.tames (h : BesideInbox s t) : Tames env s t := by
  obtain ⟨completed, connections, inbox, now⟩ := t
  obtain ⟨rfl, rfl⟩ := h
  exact ⟨rfl, rfl, fun _ => le_rfl, fun _ => le_rfl, fun h => h⟩

/-- However the calls of all users interleave, statement by statement, and wherever they stop, the
tables are sound, and what a device was told stays true. -/
theorem sms_inbox_sound (hw : Sound env w)
    {c : World SmsWorld SmsWrite SmsRow Empty (SmsCall × SmsAnswer)} (h : SmsReaches env w c) :
    Sound env c.committed ∧ ∀ n x token payload id r, c.running n = some x →
      x.proc = .done (.receive token payload id, .done r) →
        Told env token payload r c.committed := by
  let Ends (r : SmsCall × SmsAnswer) (_ : Option Empty) (_ : List SmsWrite) (_ : List SmsRow)
      (v : SmsWorld) : Prop :=
    ∀ token payload id a, r = (.receive token payload id, .done a) → Told env token payload a v
  have hsafe : ∃ owner, World.Fenced (inboxPromise env) Ends c owner := by
    have hout : ∀ {s t}, BesideInbox s t → Tames env s t := fun ht => ht.tames
    refine World.Reaches.fenced hw ?_
      (fun s t hs ht => ⟨(hout ht).sound hs, fun _ hk => hk, fun _ => (hout ht).spares⟩) h
    rintro _ ⟨call, rfl⟩ s hs
    cases call with
    | receive token payload id =>
      refine .bind (good_receiveSms.mono fun r o ws ks t hr => .pure fun v _ hv => ?_)
      rintro _ _ _ _ ⟨⟩
      exact ⟨hr.1, fun duplicate hd => (hr.2 duplicate hd).stable hv⟩
    | connect userId name token id =>
      exact FencedPromise.Harmless.answers (Harmless.createSmsConnection _ _)
        fun _ _ _ _ _ _ _ heq => by cases heq
    | revoke userId id =>
      exact FencedPromise.Harmless.answers Harmless.revokeIphoneConnection
        fun _ _ _ _ _ _ _ heq => by cases heq
    | reject userId id =>
      exact FencedPromise.Harmless.answers Harmless.rejectBankSms
        fun _ _ _ _ _ _ _ heq => by cases heq
    | confirm found userId id =>
      exact FencedPromise.Harmless.answers (Harmless.confirmMessage _)
        fun _ _ _ _ _ _ _ heq => by cases heq
  obtain ⟨owner, hsafe⟩ := hsafe
  refine ⟨hsafe.inv, fun n x token payload id r hi hdone => ?_⟩
  have hgood := hsafe.good n x hi
  rw [hdone] at hgood
  exact hgood c.committed hsafe.inv (Spares.refl _ _) token payload id r rfl

/-! ### A device and its message -/

def smsEnv : SmsEnv where
  hashSmsToken := id
  configured := true
  encrypt _ _ := "enc"
  tehranDate _ := 0
  cal := recentYears

def newInbox : SmsWorld where
  completed := [1]
  now := 1000

def deposit : SmsPayload := ⟨"واریز ۵۰۰ تومان".toList, "bank".toList, some 2000⟩

theorem newInbox_sound : Sound smsEnv newInbox where
  connections := List.nodup_nil
  tokens := List.nodup_nil
  messages := List.nodup_nil
  once := List.nodup_nil
  devices _ := Nat.zero_le _
  waiting _ := Nat.zero_le _
  through _ hm := by cases hm
  kept _ hm := by cases hm

theorem met_any {α : Type} (p : SmsRun α) (ws : List SmsWrite) (s : SmsWorld) :
    p.Met (fun _ => True) ws s := by
  induction p generalizing ws s with
  | done a => trivial
  | stmt l x v n ih => exact ⟨fun a => a.elim, ih _ _ _⟩
  | commit n ih => exact ih _ _
  | abort n ih => exact ih _ _
  | auto l x v n ih => exact ⟨fun a => a.elim, ih _ _ _⟩

/-- A phone is connected, and the message it sends waits. -/
theorem sms_inbox_sound_deposit : ∃ c, SmsReaches smsEnv newInbox c ∧
    c.committed.inbox.map (·.status) = [.pending] ∧ Sound smsEnv c.committed := by
  have hidle : SmsReaches smsEnv newInbox (World.idle newInbox) := .idle
  obtain ⟨c, hc, hquiet, hconnected⟩ :=
    World.Reaches.alone hidle (fun _ => rfl) ⟨.connect 1 "phone" "token" 7, rfl⟩ (met_any _ _ _)
  obtain ⟨d, hd, -, hreceived⟩ :=
    World.Reaches.alone hc hquiet ⟨.receive "token" deposit 8, rfl⟩ (met_any _ _ _)
  refine ⟨d, hd, ?_, (sms_inbox_sound newInbox_sound hd).1⟩
  rw [hreceived, hconnected]
  decide

end BankInbox

end Pwos
