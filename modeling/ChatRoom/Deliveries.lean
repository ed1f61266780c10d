import ChatRoom.Proof.Deliveries
import ChatRoom.Transfers

/-! # Deliveries to the right user -/

namespace ChatRoom

open Interleaving Transition

/-- The step from one state to the other starts a `FILE_DATA` frame of the delivery. -/
def Shared.StartsFrame (s s' : Shared) (pump : Pump) : Prop :=
  ∃ index : Nat, s.pumps[index]? = some pump ∧ pump.stage = .waiting ∧
    s'.pumps[index]? = some { pump with stage := .sending }

/-- The steps of a run in which

* a user logs out only without offers and without a running delivery on the connection,
* an account is deleted only without a running delivery on its connection, and the deletion is not
  reported as failed, and
* the recipients that it removes are logged in on no other connection, wait for no queued offer, and
  no other connection is finishing a file meanwhile. -/
def DeliveriesUndisturbed (state : ServerConfiguration) : ServerEvent → Prop
  | .start _ _ => True
  | .step conn choice => ∀ action next, state.code conn = .act action next →
      DeliveryCond state.shared conn choice action

theorem DeliveriesUndisturbed.meets {state : ServerConfiguration} {event : ServerEvent}
    (hundisturbed : DeliveriesUndisturbed state event) :
    deliveryLayer.contract.Meets state event := by
  cases event with
  | start conn request => trivial
  | step conn choice => exact Contract.meets_step hundisturbed

/-- **Recipients.** In a run of such steps, whenever a frame of a file is started on a connection, the
user logged in on it is one of the recipients recorded for the transfer. -/
theorem frames_reach_recipients {config : ServerConfig} {db : Database} {store : Store}
    {events : List ServerEvent} {state : ServerConfiguration}
    (hrun : Run (server config true).next DeliveriesUndisturbed (initial db store) events state) :
    ∀ event state', (server config true).next state event = some state' →
      ∀ pump, state.shared.StartsFrame state'.shared pump →
        state.shared.Receives pump.connection pump.transfer.id := by
  have hinit : deliveryLayer.inv { db, store } := by
    refine ⟨?_, ?_, ?_⟩
    · exact fun _ _ offer hoffer => absurd hoffer List.not_mem_nil
    · exact fun pump hpump => absurd hpump List.not_mem_nil
    · exact fun _ _ _ hcall => absurd hcall List.not_mem_nil
  have hright := ((deliveryLayer_sound config.crypto).run hinit
    (hrun.mono fun _ _ hundisturbed => hundisturbed.meets)).2
  rintro event state' - pump ⟨index, hpump, hwaiting, -⟩
  refine hright.pumps pump (List.mem_of_getElem? hpump) ?_
  rw [hwaiting]
  nofun

def letter : StoredFileTransfer := ⟨1, { noteMetadata with fileSize := 1 }⟩

def deliveryTables : Database :=
  { friendTables with
    users := friendTables.users ++ [(utf8 "eve", [])]
    fileTransfers := [letter]
    fileDeliveries := [⟨1, utf8 "bob", none⟩]
    nextTransferId := 2 }

def deliveryStore : Store :=
  { files := fun path => if path = letter.metadata.storedRelativePath then some [65] else none }

def letterPump : Pump := ⟨0, letter, 0, 0, .waiting⟩

def asksForLetter : List (Move ConnId Choice Request) :=
  serveMoves 0 (.fileResumeRequest (utf8 "1 0")) ++ serveMoves 0 (.pumpStep 0) ++
    serveMoves 0 (.pumpStep 0) ++ [.start 0 (.pumpStep 0)]

def leavesNothing (state : ServerConfiguration) (conn : ConnId) : Bool :=
  match state.code conn with
  | .act (.assign .logout) _ =>
    decide ((state.shared.sessions conn).offeredFiles = [] ∧ state.shared.NoDelivery conn)
  | .act (.update (.deleteUser _)) _ => false
  | _ => true

theorem deliveriesUndisturbed_of_leavesNothing {state : ServerConfiguration} {event : ServerEvent}
    (hleaves : leavesNothing state event.tid = true) : DeliveriesUndisturbed state event := by
  cases event with
  | start conn request => trivial
  | step conn choice =>
    intro action next hcode
    have htest : leavesNothing state conn = true := hleaves
    unfold leavesNothing at htest
    rw [hcode] at htest
    cases action with
    | assign a =>
      cases a with
      | logout =>
        show (state.shared.sessions conn).offeredFiles = [] ∧ state.shared.NoDelivery conn
        exact of_decide_eq_true htest
      | _ => trivial
    | update update =>
      cases update with
      | deleteUser username => cases htest
      | _ => trivial
    | _ => trivial

theorem frames_reach_recipients_after_logout :
    ∃ events state state',
      Run (server scriptConfig true).next DeliveriesUndisturbed (initial deliveryTables deliveryStore)
        events state ∧
      (server scriptConfig true).next state (.step 0 .proceed) = some state' ∧
      state.shared.StartsFrame state'.shared letterPump ∧
      state.shared.Receives 0 1 := by
  have hscript : ((play (server scriptConfig true) usualChoice
      (fun state event => leavesNothing state event.tid) (initial deliveryTables deliveryStore)
      (serveMoves 0 .connect ++ serveMoves 0 (.login (utf8 "eve pw")) ++ serveMoves 0 .logout ++
        serveMoves 0 (.login (utf8 "bob pw")) ++ asksForLetter)).any fun state =>
        decide (state.shared.pumps[0]? = some letterPump) &&
        ((server scriptConfig true).next state (.step 0 .proceed)).any fun state' =>
          decide (state'.shared.pumps[0]? = some { letterPump with stage := .sending })) = true := by
    decide +kernel
  obtain ⟨events, state, hchecked, htest⟩ := play_reaches hscript
  simp only [Bool.and_eq_true, decide_eq_true_eq, Option.any_eq_true] at htest
  obtain ⟨hwaiting, state', hnext, hsending⟩ := htest
  have hrun : Run (server scriptConfig true).next DeliveriesUndisturbed
      (initial deliveryTables deliveryStore) events state :=
    hchecked.mono fun _ _ hleaves => deliveriesUndisturbed_of_leavesNothing hleaves
  have hstarts : state.shared.StartsFrame state'.shared letterPump := ⟨0, hwaiting, rfl, hsending⟩
  exact ⟨events, state, state', hrun, hnext, hstarts,
    frames_reach_recipients hrun _ state' hnext letterPump hstarts⟩

/-- **A file for the wrong user.** The file is offered to Bob, who logs out. Eve logs in on the same
connection and asks for it: the offer is still there, and the delivery starts. -/
theorem frame_started_for_next_user :
    ∃ events state state',
      Run (server scriptConfig true).next anyStep (initial deliveryTables deliveryStore) events
        state ∧
      (server scriptConfig true).next state (.step 0 .proceed) = some state' ∧
      state.shared.StartsFrame state'.shared letterPump ∧
      (state.shared.sessions 0).loggedIn = true ∧
      (state.shared.sessions 0).username = utf8 "eve" ∧
      ¬state.shared.db.IsRecipient 1 (utf8 "eve") := by
  have hscript : ((play (server scriptConfig true) usualChoice (fun _ _ => true)
      (initial deliveryTables deliveryStore)
      (serveMoves 0 .connect ++ serveMoves 0 (.login (utf8 "bob pw")) ++ serveMoves 0 .logout ++
        serveMoves 0 (.login (utf8 "eve pw")) ++ asksForLetter)).any fun state =>
        decide (state.shared.pumps[0]? = some letterPump) &&
        decide ((state.shared.sessions 0).loggedIn = true) &&
        decide ((state.shared.sessions 0).username = utf8 "eve") &&
        decide (¬state.shared.db.IsRecipient 1 (utf8 "eve")) &&
        ((server scriptConfig true).next state (.step 0 .proceed)).any fun state' =>
          decide (state'.shared.pumps[0]? = some { letterPump with stage := .sending })) = true := by
    decide +kernel
  obtain ⟨events, state, hrun, htest⟩ := play_reaches hscript
  simp only [Bool.and_eq_true, decide_eq_true_eq, Option.any_eq_true] at htest
  obtain ⟨⟨⟨⟨hwaiting, hloggedIn⟩, husername⟩, hrecipient⟩, state', hnext, hsending⟩ := htest
  exact ⟨events, state, state', hrun.mono fun _ _ _ => trivial, hnext,
    ⟨0, hwaiting, rfl, hsending⟩, hloggedIn, husername, hrecipient⟩

end ChatRoom
