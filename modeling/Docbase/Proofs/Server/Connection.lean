import Docbase.Proofs.Server.Store
import Mathlib.Data.List.Induction

/-!
# Connections

Opening a connection takes three steps of the driver: a client is made, the server is pinged, and
the database is looked up. The client is kept before the last step is taken. If that one fails, the
store has a client and no database, takes itself to be connected from then on, and refuses all
tasks until it is disconnected.

* `Store.after`: the connection after some requests.
* `Store.Stranded`: a run in which a connection was left with a client and no database.
* `Store.connection_after`: what is so after every run.
-/

namespace Docbase.Server

open Docbase.Action (Preserves)

variable {σ α : Type}

/-! ## Runs -/

inductive Request
  | connect
  | disconnect
  | startSession
  | insert (collection : String) (document session : Value)
  | insertAll (collection : String) (documents ordered session : Value)
  | update (collection : String) (filter patch session : Value)
  | delete (collection : String) (filter session : Value)
  | find (collection : String) (filter session : Value)
  | query (collection : String) (filter limit session : Value)
  | count (collection : String) (filter session : Value)
  | aggregate (collection : String) (pipeline session : Value)
  | indexExists (collection : String) (keys unique : Value)
  | createIndex (collection : String) (keys unique : Value)

def Request.after (store : Store σ) (c : Connection σ) : Request → Connection σ
  | .connect => (store.connect c).2
  | .disconnect => (store.disconnect c).2
  | .startSession => (store.startSession c).2
  | .insert collection document session => (store.insert collection document session c).2
  | .insertAll collection documents ordered session =>
    (store.insertAll collection documents ordered session c).2
  | .update collection filter patch session => (store.update collection filter patch session c).2
  | .delete collection filter session => (store.delete collection filter session c).2
  | .find collection filter session => (store.find collection filter session c).2
  | .query collection filter limit session => (store.query collection filter limit session c).2
  | .count collection filter session => (store.count collection filter session c).2
  | .aggregate collection pipeline session => (store.aggregate collection pipeline session c).2
  | .indexExists collection keys unique => (store.indexExists collection keys unique c).2
  | .createIndex collection keys unique => (store.createIndex collection keys unique c).2

namespace Store

variable {store : Store σ} {c start : Connection σ} {r : Request} {requests : List Request}

def after (store : Store σ) (c : Connection σ) (requests : List Request) : Connection σ :=
  requests.foldl (Request.after store) c

theorem after_concat (requests : List Request) (r : Request) :
    store.after c (requests ++ [r]) = r.after store (store.after c requests) :=
  List.foldl_concat _ _ _ _

/-! ## Requests that leave the connection as it is -/

def Has (client database : Bool) (c : Connection σ) : Prop :=
  c.hasClient = client ∧ c.hasDatabase = database

theorem preserves_drive {client database : Bool} (a : Action σ α) :
    Preserves (Has client database) (drive a) := fun _ h => h

theorem preserves_perform {client database : Bool} (task : DriverTask) (collection : String)
    (a : Action σ α) (explain : Failure → Option (Except Misuse Failure)) :
    Preserves (Has client database) (perform task collection a explain) := by
  intro c h
  rw [perform_apply]
  split
  · exact h
  · exact h

theorem preserves_startSession {client database : Bool} (store : Store σ) :
    Preserves (Has client database) store.startSession := by
  refine Action.preserves_get.bind fun c => ?_
  dsimp only
  split
  · refine (preserves_drive _).attempt.bind fun outcome => ?_
    cases outcome with
    | ok session => exact Action.preserves_pure _
    | error failure => exact Action.preserves_throw _
  · exact fun _ h => h

theorem has_after (store : Store σ) (c : Connection σ) (connecting : r ≠ .connect)
    (disconnecting : r ≠ .disconnect) : Has c.hasClient c.hasDatabase (r.after store c) := by
  have h : Has c.hasClient c.hasDatabase c := ⟨rfl, rfl⟩
  cases r with
  | connect => exact absurd rfl connecting
  | disconnect => exact absurd rfl disconnecting
  | startSession => exact preserves_startSession store c h
  | insert collection document session =>
    exact ((preserves_perform _ _ _ _).bind fun _ => Action.preserves_pure _) c h
  | find collection filter session =>
    exact ((preserves_perform _ _ _ _).bind fun _ => Action.preserves_pure _) c h
  | indexExists collection keys unique =>
    exact ((preserves_perform _ _ _ _).bind fun _ => Action.preserves_lift _) c h
  | insertAll | update | delete | query | count | aggregate | createIndex =>
    exact preserves_perform _ _ _ _ c h

/-! ## Opening and closing -/

/-- The steps of a driver towards a connection that are taken before the client is kept. -/
def greet (store : Store σ) : Action σ Unit := do
  store.driver.connect store.address.parameters
  store.driver.ping

def contact (store : Store σ) : Action σ Unit := do
  store.greet
  store.driver.selectDatabase store.address.database

def unopened (store : Store σ) (failure : Failure) : Failure :=
  if isConnectionFailure failure then
    .serverUnreachable store.address.host store.address.portNumber
  else .serverUnexpected failure

/-- The server answers, but its database cannot be looked up. -/
def LacksDatabase (store : Store σ) (s : σ) : Prop :=
  (store.greet s).1 = .ok () ∧ ∃ failure,
    (store.driver.selectDatabase store.address.database (store.greet s).2).1 = .error failure

theorem lacksDatabase_iff {s : σ} :
    store.LacksDatabase s ↔ (store.greet s).1 = .ok () ∧ (store.contact s).1 ≠ .ok () := by
  refine and_congr_right fun greeted => ?_
  rw [contact, Action.bind_apply]
  rcases greet : store.greet s with ⟨_ | _, t⟩
  · rw [greet] at greeted
    cases greeted
  · dsimp only
    rcases store.driver.selectDatabase store.address.database t with ⟨_ | _, u⟩ <;> simp

theorem connect_of_client (client : c.hasClient = true) : store.connect c = (.ok (), c) := by
  simp [connect, Action.bind_apply, client]

theorem opened_apply (noClient : c.hasClient = false) :
    store.opened c = ((store.contact c.driver).1,
      { driver := (store.contact c.driver).2
        hasClient := (store.greet c.driver).1.isOk
        hasDatabase := c.hasDatabase || (store.contact c.driver).1.isOk }) := by
  obtain ⟨s, client, database⟩ := c
  obtain rfl : client = false := noClient
  simp only [opened, contact, greet, Action.bind_apply, drive_apply, Action.modify_apply]
  rcases store.driver.connect store.address.parameters s with ⟨_ | _, s⟩
  · simp [Except.isOk, Except.toBool]
  dsimp only
  rcases store.driver.ping s with ⟨_ | _, s⟩
  · simp [Except.isOk, Except.toBool]
  dsimp only
  rcases store.driver.selectDatabase store.address.database s with ⟨_ | _, s⟩ <;>
    simp [Except.isOk, Except.toBool]

theorem connect_of_no_client (noClient : c.hasClient = false) :
    store.connect c = ((store.contact c.driver).1.mapError store.unopened,
      { driver := (store.contact c.driver).2
        hasClient := (store.greet c.driver).1.isOk
        hasDatabase := c.hasDatabase || (store.contact c.driver).1.isOk }) := by
  simp only [connect, Action.bind_apply, Action.get_apply, noClient, Bool.false_eq_true, if_false,
    Action.attempt_apply, opened_apply noClient]
  rcases (store.contact c.driver).1 with failure | _
  · simp only [Except.mapError, unopened]
    split <;> rfl
  · rfl

theorem disconnect_of_no_client (noClient : c.hasClient = false) :
    store.disconnect c = (.ok (), c) := by
  simp [disconnect, Action.bind_apply, noClient]

theorem disconnect_of_client (client : c.hasClient = true) :
    store.disconnect c =
      match store.driver.close c.driver with
      | (.error failure, s) => (.error failure, { c with driver := s })
      | (.ok (), s) => (.ok (), { driver := s }) := by
  simp only [disconnect, Action.bind_apply, Action.get_apply, client, if_true, drive_apply]
  rcases store.driver.close c.driver with ⟨_ | _, s⟩ <;> rfl

theorem isOk_iff {outcome : Except Failure Unit} : outcome.isOk = true ↔ outcome = .ok () := by
  cases outcome <;> simp [Except.isOk, Except.toBool]

theorem hasClient_connect (noClient : c.hasClient = false) :
    (store.connect c).2.hasClient = true ↔ (store.greet c.driver).1 = .ok () := by
  rw [connect_of_no_client noClient, isOk_iff]

theorem hasDatabase_connect (noClient : c.hasClient = false) (noDatabase : c.hasDatabase = false) :
    (store.connect c).2.hasDatabase = true ↔ (store.contact c.driver).1 = .ok () := by
  rw [connect_of_no_client noClient, noDatabase, Bool.false_or, isOk_iff]

/-! ## Runs that leave a client without a database -/

def Sound (c : Connection σ) : Prop := c.hasDatabase = true → c.hasClient = true

theorem Sound.noDatabase (sound : Sound c) (noClient : c.hasClient = false) :
    c.hasDatabase = false := by
  rw [← Bool.not_eq_true]
  intro database
  rw [sound database] at noClient
  cases noClient

theorem Sound.whole_iff (sound : Sound c) :
    (c.hasClient = true ↔ c.hasDatabase = true) ↔ ¬ Has true false c := by
  rw [Sound] at sound
  rw [Has]
  cases client : c.hasClient <;> cases database : c.hasDatabase <;> simp_all

theorem contact_ok {s : σ} (h : (store.contact s).1 = .ok ()) : (store.greet s).1 = .ok () := by
  obtain ⟨_, greeted, -⟩ := Action.bind_eq_ok.1 h
  exact greeted

theorem Sound.connect (sound : Sound c) : Sound (store.connect c).2 := by
  cases client : c.hasClient with
  | true =>
    rw [connect_of_client client]
    exact sound
  | false =>
    intro database
    rw [hasDatabase_connect client (sound.noDatabase client)] at database
    exact (hasClient_connect client).2 (contact_ok database)

theorem Sound.disconnect (sound : Sound c) : Sound (store.disconnect c).2 := by
  cases client : c.hasClient with
  | true =>
    rw [disconnect_of_client client]
    rcases store.driver.close c.driver with ⟨_ | _, s⟩
    · exact sound
    · exact fun database => database
  | false =>
    rw [disconnect_of_no_client client]
    exact sound

theorem Sound.request (sound : Sound c) (store : Store σ) (r : Request) :
    Sound (r.after store c) := by
  by_cases connecting : r = .connect
  · subst connecting
    exact sound.connect
  by_cases disconnecting : r = .disconnect
  · subst disconnecting
    exact sound.disconnect
  · obtain ⟨client, database⟩ := has_after store c connecting disconnecting
    rw [Sound, client, database]
    exact sound

theorem Sound.after (sound : Sound c) (store : Store σ) (requests : List Request) :
    Sound (store.after c requests) := by
  induction requests generalizing c with
  | nil => exact sound
  | cons r rest ih => exact ih (sound.request store r)

theorem halfway_connect (sound : Sound c) :
    Has true false (store.connect c).2 ↔
      Has true false c ∨ c.hasClient = false ∧ store.LacksDatabase c.driver := by
  cases client : c.hasClient with
  | true => simp [connect_of_client client]
  | false =>
    have fresh : ¬ Has true false c := fun h => by simp [Has, client] at h
    rw [Has, hasClient_connect client, ← Bool.not_eq_true,
      hasDatabase_connect client (sound.noDatabase client), lacksDatabase_iff]
    simp [fresh]

theorem halfway_disconnect :
    Has true false (store.disconnect c).2 ↔
      Has true false c ∧ (store.driver.close c.driver).1 ≠ .ok () := by
  cases client : c.hasClient with
  | true =>
    rw [disconnect_of_client client]
    rcases store.driver.close c.driver with ⟨_ | _, s⟩ <;> simp [Has]
  | false => simp [disconnect_of_no_client client, Has, client]

/-- In a run, the last connection that was opened has found the server and not its database, and
has not been closed since. -/
def Stranded (store : Store σ) (start : Connection σ) (requests : List Request) : Prop :=
  ∃ before later, requests = before ++ .connect :: later ∧
    (store.after start before).hasClient = false ∧
    store.LacksDatabase (store.after start before).driver ∧
    ∀ mid rest, later = mid ++ .disconnect :: rest →
      (store.driver.close (store.after start (before ++ .connect :: mid)).driver).1 ≠ .ok ()

theorem not_stranded_nil : ¬ store.Stranded start [] := by
  rintro ⟨before, later, split, -⟩
  cases before <;> cases split

theorem stranded_concat :
    store.Stranded start (requests ++ [r]) ↔
      (store.Stranded start requests ∧ (r = .disconnect →
        (store.driver.close (store.after start requests).driver).1 ≠ .ok ())) ∨
      (r = .connect ∧ (store.after start requests).hasClient = false ∧
        store.LacksDatabase (store.after start requests).driver) := by
  constructor
  · rintro ⟨before, later, split, noClient, lacks, unclosed⟩
    -- Either the last request is the one that has stranded, or it came after that one.
    rcases List.eq_nil_or_concat later with rfl | ⟨later, last, rfl⟩
    · obtain ⟨rfl, same⟩ := List.append_inj' split rfl
      obtain rfl := (List.cons.inj same).1
      exact .inr ⟨rfl, noClient, lacks⟩
    · rw [List.concat_eq_append, ← List.cons_append, ← List.append_assoc] at split
      obtain ⟨rfl, same⟩ := List.append_inj' split rfl
      obtain rfl := (List.cons.inj same).1
      refine .inl ⟨⟨before, later, rfl, noClient, lacks, fun mid rest split => ?_⟩, ?_⟩
      · exact unclosed mid (rest ++ [r]) (by simp [split])
      · rintro rfl
        exact unclosed later [] (by simp)
  · rintro (⟨⟨before, later, rfl, noClient, lacks, unclosed⟩, last⟩ | ⟨rfl, noClient, lacks⟩)
    · refine ⟨before, later ++ [r], by simp, noClient, lacks, fun mid rest split => ?_⟩
      rcases List.eq_nil_or_concat rest with rfl | ⟨rest, final, rfl⟩
      · obtain ⟨rfl, same⟩ := List.append_inj' split rfl
        exact last (List.cons.inj same).1
      · rw [List.concat_eq_append, ← List.cons_append, ← List.append_assoc] at split
        exact unclosed mid rest (List.append_inj' split rfl).1
    · refine ⟨requests, [], rfl, noClient, lacks, fun mid rest split => ?_⟩
      cases mid <;> cases split

theorem halfway_after_iff (sound : Sound start) (noClient : start.hasClient = false)
    (requests : List Request) :
    Has true false (store.after start requests) ↔ store.Stranded start requests := by
  induction requests using List.reverseRecOn with
  | nil =>
    refine iff_of_false (fun h => ?_) not_stranded_nil
    have client : start.hasClient = true := h.1
    rw [noClient] at client
    cases client
  | append_singleton requests r ih =>
    rw [after_concat, stranded_concat, ← ih]
    have sound := sound.after store requests
    by_cases connecting : r = .connect
    · subst connecting
      rw [Request.after, halfway_connect sound]
      simp
    by_cases disconnecting : r = .disconnect
    · subst disconnecting
      rw [Request.after, halfway_disconnect]
      simp
    · obtain ⟨client, database⟩ := has_after store (store.after start requests) connecting
        disconnecting
      simp [Has, client, database, connecting, disconnecting]

/-- After any requests to a store that was not connected there is no database without a client, and
no client without a database, unless the run has stranded. A request to connect that fails leaves no
database, and a client only if the database could not be looked up. With a client such a request
does nothing; without one it contacts the driver, be it for the first time or again. -/
theorem connection_after (store : Store σ) (s : σ) (requests : List Request) :
    let start : Connection σ := { driver := s }
    let c := store.after start requests
    (c.hasDatabase = true → c.hasClient = true) ∧
    ((c.hasClient = true ↔ c.hasDatabase = true) ↔ ¬ store.Stranded start requests) ∧
    (∀ failure, (store.connect c).1 = .error failure →
      (store.connect c).2.hasDatabase = false ∧
        ((store.connect c).2.hasClient = true ↔ store.LacksDatabase c.driver)) ∧
    (c.hasClient = true → store.connect c = (.ok (), c)) ∧
    (c.hasClient = false →
      (store.connect c).1 = (store.contact c.driver).1.mapError store.unopened ∧
        (store.connect c).2.driver = (store.contact c.driver).2) := by
  intro start c
  have sound : Sound c := Sound.after (fun database => database) store requests
  have contacts (noClient : c.hasClient = false) :
      (store.connect c).1 = (store.contact c.driver).1.mapError store.unopened ∧
        (store.connect c).2.driver = (store.contact c.driver).2 := by
    rw [connect_of_no_client noClient]
    exact ⟨rfl, rfl⟩
  refine ⟨sound, ?_, ?_, connect_of_client, contacts⟩
  · rw [← halfway_after_iff (fun database => database) rfl]
    exact sound.whole_iff
  · intro failure failed
    cases client : c.hasClient with
    | true =>
      rw [connect_of_client client] at failed
      cases failed
    | false =>
      have uncontacted : (store.contact c.driver).1 ≠ .ok () := by
        intro contacted
        rw [(contacts client).1, contacted] at failed
        cases failed
      rw [← Bool.not_eq_true, hasDatabase_connect client (sound.noDatabase client),
        hasClient_connect client, lacksDatabase_iff]
      exact ⟨uncontacted, by simp [uncontacted]⟩

/-- A driver that counts how often it is asked for a database, and has none with a dot in its
name. -/
def dotless : Driver Nat :=
  { Driver.idle with selectDatabase := fun name => do
      modify (· + 1)
      match name with
      | .str text =>
        if '.' ∈ text.toList then
          throw (.outside "database names cannot contain the character '.'")
      | _ => return }

/-- A request to connect that fails may leave a client, and then the next one does nothing. -/
theorem connect_strands :
    let store : Store Nat :=
      ⟨{ host := .str "db", portNumber := .int 27017, database := .str "my.app" }, dotless⟩
    let c := store.after { driver := 0 } [.connect]
    (store.connect { driver := 0 }).1 =
        .error (.serverUnexpected (.outside "database names cannot contain the character '.'")) ∧
      c.driver = 1 ∧ ¬ (c.hasClient = true ↔ c.hasDatabase = true) ∧
      store.connect c = (.ok (), c) :=
  ⟨rfl, rfl, by decide, rfl⟩

end Store
end Docbase.Server
