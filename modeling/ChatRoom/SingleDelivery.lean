import ChatRoom.Deliveries

/-! # One delivery for each transfer -/

namespace ChatRoom

open Interleaving Transition

namespace Shared

/-- A delivery of the transfer on the connection can still emit frames. -/
def Emits (s : Shared) (conn : ConnId) (transferId : Nat) : Prop :=
  ∃ pump ∈ s.pumps, pump.canEmit = true ∧ pump.connection = conn ∧ pump.transfer.id = transferId

instance (s : Shared) (conn : ConnId) (transferId : Nat) : Decidable (s.Emits conn transferId) :=
  inferInstanceAs (Decidable (∃ pump ∈ s.pumps, _))

/-- For each connection and transfer, at most one delivery can still emit frames. -/
def SingleDelivery (s : Shared) : Prop :=
  ∀ (index index' : Nat) (pump pump' : Pump), s.pumps[index]? = some pump →
    s.pumps[index']? = some pump' → pump.canEmit = true → pump'.canEmit = true →
    pump.connection = pump'.connection → pump.transfer.id = pump'.transfer.id → index = index'

end Shared

/-- The marks of a session are erased only after the deliveries they stand for. -/
def MarkCond (s : Shared) (conn : ConnId) : Act → Prop
  | .assign a => ∀ transferId, a.unmarks transferId → ¬s.Emits conn transferId
  | _ => True

structure DeliveriesMarked (s : Shared) : Prop where
  marked : ∀ pump ∈ s.pumps, pump.canEmit = true →
    pump.transfer.id ∈ (s.sessions pump.connection).fileDeliveriesInProgress
  single : s.SingleDelivery

def MarksSeen (conn : ConnId) (st : Progress) (s : Shared) : Prop :=
  ∀ ids, st.inProgress = some ids → ∀ id ∈ (s.sessions conn).fileDeliveriesInProgress, id ∈ ids

def markLayer : Layer where
  inv := DeliveriesMarked
  rely := fun conn s s' => ∀ id ∈ (s'.sessions conn).fileDeliveriesInProgress,
    id ∈ (s.sessions conn).fileDeliveriesInProgress
  cond := fun conn action _ s => MarkCond s conn action
  shown := fun _ _ _ _ _ => True
  tracks := MarksSeen

section Step

variable {crypto : Crypto} {conn : ConnId} {action : Act} {choice : Choice} {st : Progress}
  {s s' : Shared} {result : action.Result}

theorem MarksSeen.step (hseen : MarksSeen conn st s)
    (hexec : exec crypto conn action choice s = some (result, s')) :
    MarksSeen conn (st.after action result) s' := by
  intro ids hids id hid
  by_cases hsession : action = .session
  · subst hsession
    cases choice <;> cases hexec
    cases hids
    exact hid
  by_cases hdeliver : ∃ transfer offset, action = .deliverAsync transfer offset
  · obtain ⟨transfer, offset, rfl⟩ := hdeliver
    cases hids
  have hnever : ∀ transfer offset, action ≠ .deliverAsync transfer offset :=
    fun transfer offset heq => hdeliver ⟨transfer, offset, heq⟩
  rw [(st.kept_after action result).inProgress hsession hnever] at hids
  refine hseen ids hids id (((Change.of_exec hexec).marked hid).resolve_right ?_)
  exact fun hstarted => hdeliver hstarted.2

theorem marked_step (hinv : DeliveriesMarked s) (hcond : MarkCond s conn action)
    (hchange : Change conn s action s') {pump : Pump} (hpump : pump ∈ s'.pumps)
    (hemits : pump.canEmit = true) :
    pump.transfer.id ∈ (s'.sessions pump.connection).fileDeliveriesInProgress := by
  obtain ⟨index, hindex⟩ := List.mem_iff_getElem?.mp hpump
  rcases hchange.emitting hindex hemits with
    ⟨earlier, hearlier, hcould, hconnection, htransfer⟩ | ⟨startOffset, rfl, hconnection, -⟩
  · have hmem := List.mem_of_getElem? hearlier
    rw [← hconnection, ← htransfer]
    refine (hchange.marks (hinv.marked earlier hmem hcould)).resolve_right ?_
    rintro ⟨hconn, a, rfl, hunmarks⟩
    exact hcond _ hunmarks ⟨earlier, hmem, hcould, hconn, rfl⟩
  · cases hchange with
    | framed hframed => cases hframed
    | stored hstoring => cases hstoring
    | delivered =>
      rw [hconnection]
      show _ ∈ (Function.update s.sessions conn _ conn).fileDeliveriesInProgress
      rw [Function.update_self]
      exact List.mem_append_right _ (List.mem_singleton_self _)

theorem not_emits_of_mayDeliver (hinv : DeliveriesMarked s) (hseen : MarksSeen conn st s)
    {transferId : Nat} (hmay : st.MayDeliver transferId) : ¬s.Emits conn transferId := by
  rintro ⟨pump, hpump, hemits, rfl, rfl⟩
  obtain ⟨-, -, ids, hids, hnew⟩ := hmay
  exact hnew (hseen ids hids _ (hinv.marked pump hpump hemits))

theorem single_step (hinv : DeliveriesMarked s) (hallowed : st.Allowed action)
    (hseen : MarksSeen conn st s) (hchange : Change conn s action s') : s'.SingleDelivery := by
  -- a delivery that has just been started has no emitting companion among the earlier ones
  have hfresh : ∀ {earlier : Pump} {index startOffset : Nat} {transfer : StoredFileTransfer},
      s.pumps[index]? = some earlier → earlier.canEmit = true → earlier.connection = conn →
      earlier.transfer.id = transfer.id → action ≠ .deliverAsync transfer startOffset := by
    rintro earlier index startOffset transfer hearlier hcould hconnection hid rfl
    exact not_emits_of_mayDeliver hinv hseen hallowed
      ⟨earlier, List.mem_of_getElem? hearlier, hcould, hconnection, hid⟩
  intro index index' pump pump' hpump hpump' hemits hemits' hconnection hid
  rcases hchange.emitting hpump hemits with
    ⟨earlier, hearlier, hcould, hconn, htransfer⟩ | ⟨startOffset, haction, hconn, hindex⟩ <;>
  rcases hchange.emitting hpump' hemits' with
    ⟨earlier', hearlier', hcould', hconn', htransfer'⟩ | ⟨startOffset', haction', hconn', hindex'⟩
  · refine hinv.single index index' earlier earlier' hearlier hearlier' hcould hcould' ?_ ?_
    · rw [hconn, hconn', hconnection]
    · rw [htransfer, htransfer', hid]
  · refine absurd haction' (hfresh hearlier hcould ?_ ?_)
    · rw [hconn, hconnection, hconn']
    · rw [htransfer, hid]
  · refine absurd haction (hfresh hearlier' hcould' ?_ ?_)
    · rw [hconn', ← hconnection, hconn]
    · rw [htransfer', ← hid]
  · rw [hindex, hindex']

end Step

theorem markLayer_sound (crypto : Crypto) : markLayer.Sound crypto where
  stable := fun _ hrely _ hseen ids hids id hid => hseen ids hids id (hrely id hid)
  step := by
    intro conn st action choice result s s' hallowed _ hinv _ hseen hcond hexec
    have hchange := Change.of_exec hexec
    refine ⟨⟨fun pump => marked_step hinv hcond hchange, single_step hinv hallowed hseen hchange⟩,
      ?_, trivial, hseen.step hexec⟩
    intro other hne id hid
    exact (hchange.marked hid).resolve_right fun hstarted => hne hstarted.1
  start := by
    rintro conn task s s' - hinv ⟨-, loopCalls, rfl, -⟩
    exact ⟨⟨hinv.marked, hinv.single⟩, fun other _ id hid => hid, nofun⟩
  finish := by
    intro conn st choice s _ hinv _ _
    exact ⟨⟨hinv.marked, hinv.single⟩, fun other _ id hid => hid, trivial⟩

/-- The steps of a run in which the mark of a transfer is erased from a session only when no delivery
of the transfer on the connection can emit frames any more: `FILE_RECEIVED`, `FILE_RECEIVE_FAILED`,
the end of a failed delivery and the deletion of an account find no running delivery. -/
def MarksOutliveDeliveries (state : ServerConfiguration) : ServerEvent → Prop
  | .start _ _ => True
  | .step conn _ => ∀ action next, state.code conn = .act action next →
      MarkCond state.shared conn action

/-- **One delivery.** In a run of such steps, at most one delivery that can still emit `FILE_DATA`
frames exists for a connection and a transfer. -/
theorem single_delivery_of_marks {config : ServerConfig} {db : Database} {store : Store}
    {events : List ServerEvent} {state : ServerConfiguration}
    (hrun : Run (server config true).next MarksOutliveDeliveries (initial db store) events state) :
    state.shared.SingleDelivery := by
  have hinit : markLayer.inv { db, store } :=
    ⟨fun pump hpump => absurd hpump List.not_mem_nil, nofun⟩
  have hmeets : ∀ state event, MarksOutliveDeliveries state event →
      markLayer.contract.Meets state event := by
    intro state event hmarks
    cases event with
    | start conn request => trivial
    | step conn choice => exact Contract.meets_step hmarks
  exact ((markLayer_sound config.crypto).run hinit (hrun.mono hmeets)).2.single

def erasesEndedMark (state : ServerConfiguration) (conn : ConnId) : Bool :=
  match state.code conn with
  | .act (.assign (.eraseDelivery transferId)) _ => decide (¬state.shared.Emits conn transferId)
  | .act (.assign .accountDeleted) _ => false
  | _ => true

theorem marksOutliveDeliveries_of_erasesEndedMark {state : ServerConfiguration}
    {event : ServerEvent} (herases : erasesEndedMark state event.tid = true) :
    MarksOutliveDeliveries state event := by
  cases event with
  | start conn request => trivial
  | step conn choice =>
    intro action next hcode
    have htest : erasesEndedMark state conn = true := herases
    unfold erasesEndedMark at htest
    rw [hcode] at htest
    cases action with
    | assign a =>
      intro transferId hunmarks
      cases a with
      | eraseDelivery erased =>
        cases hunmarks
        exact of_decide_eq_true htest
      | accountDeleted => cases htest
      | _ => exact hunmarks.elim
    | _ => trivial

theorem single_delivery_after_retry :
    ∃ events state,
      Run (server scriptConfig true).next MarksOutliveDeliveries
        (initial deliveryTables deliveryStore) events state ∧
      state.shared.pumps = [⟨0, letter, 1, 0, .ended⟩, ⟨0, letter, 0, 1, .waiting⟩] ∧
      state.shared.SingleDelivery := by
  have hscript : ((play (server scriptConfig true) usualChoice
      (fun state event => erasesEndedMark state event.tid) (initial deliveryTables deliveryStore)
      (serveMoves 0 .connect ++ serveMoves 0 (.login (utf8 "bob pw")) ++
        serveMoves 0 (.fileResumeRequest (utf8 "1 0")) ++ serveMoves 0 (.pumpStep 0) ++
        serveMoves 0 (.pumpStep 0) ++ serveMoves 0 (.pumpStep 0) ++ serveMoves 0 (.pumpStep 0) ++
        serveMoves 0 (.pumpStep 0) ++ serveMoves 0 (.fileReceiveFailed (utf8 "1")) ++
        serveMoves 0 (.fileResumeRequest (utf8 "1 0")) ++ serveMoves 0 (.pumpStep 1) ++
        serveMoves 0 (.pumpStep 1))).any fun state =>
        decide (state.shared.pumps =
          [⟨0, letter, 1, 0, .ended⟩, ⟨0, letter, 0, 1, .waiting⟩])) = true := by
    decide +kernel
  obtain ⟨events, state, hchecked, htest⟩ := play_reaches hscript
  have hrun : Run (server scriptConfig true).next MarksOutliveDeliveries
      (initial deliveryTables deliveryStore) events state :=
    hchecked.mono fun _ _ herases => marksOutliveDeliveries_of_erasesEndedMark herases
  exact ⟨events, state, hrun, of_decide_eq_true htest, single_delivery_of_marks hrun⟩

/-- **Two deliveries.** Bob's receiver reports a failure while the delivery is running. The mark is
erased, the delivery goes on, and the next request starts a second delivery of the same file. -/
theorem two_deliveries_after_failure_report :
    ∃ events state,
      Run (server scriptConfig true).next anyStep (initial deliveryTables deliveryStore) events
        state ∧
      state.shared.pumps = [letterPump, { letterPump with flag := 1 }] ∧
      ¬state.shared.SingleDelivery := by
  have hscript : ((play (server scriptConfig true) usualChoice (fun _ _ => true)
      (initial deliveryTables deliveryStore)
      (serveMoves 0 .connect ++ serveMoves 0 (.login (utf8 "bob pw")) ++
        serveMoves 0 (.fileResumeRequest (utf8 "1 0")) ++ serveMoves 0 (.pumpStep 0) ++
        serveMoves 0 (.pumpStep 0) ++ serveMoves 0 (.fileReceiveFailed (utf8 "1")) ++
        serveMoves 0 (.fileResumeRequest (utf8 "1 0")) ++ serveMoves 0 (.pumpStep 1) ++
        serveMoves 0 (.pumpStep 1))).any fun state =>
        decide (state.shared.pumps = [letterPump, { letterPump with flag := 1 }])) = true := by
    decide +kernel
  obtain ⟨events, state, hrun, htest⟩ := play_reaches hscript
  have hpumps := of_decide_eq_true htest
  refine ⟨events, state, hrun.mono fun _ _ _ => trivial, hpumps, fun hsingle => ?_⟩
  have hindex := hsingle 0 1 letterPump { letterPump with flag := 1 } (by rw [hpumps]; rfl)
    (by rw [hpumps]; rfl) rfl rfl rfl rfl
  cases hindex

end ChatRoom
