import ChatRoom.Proof.Serial

/-!
# Permissions under concurrency

Private messages are stored under the friend mutex, but the permission may come from the realtime
cache.
-/

namespace ChatRoom

open Interleaving Transition

/-! ### Stored private messages -/

/-- The steps of a run in which

* an update that is reported as failed has taken no permission away,
* no update takes a permission away that an `ENTER_PRIVATE` of another connection asks for, and
* when a `MSG` compares the generation of its cache, no change that takes the cached permission away
  is committed without being published. -/
def MessagesUndisturbed (state : ServerConfiguration) (event : ServerEvent) : Prop :=
  (directLayer true).contract.Meets state event

/-- **Check and insert.** In a run of such steps, the tables permit every private message at the step
that stores it, whether the permission was evaluated or found in the cache. -/
theorem privateMessage_permitted {config : ServerConfig} {db : Database} {store : Store}
    {events : List ServerEvent} {state : ServerConfiguration}
    (hrun : Run (server config true).next MessagesUndisturbed (initial db store) events state)
    {conn : ConnId} {payload : ChatMessagePayload}
    (hinsert : nextUpdate state conn = some (.addPrivateMessageWithDelivery payload)) :
    state.shared.db.permits payload.senderUsername payload.recipientUsername = true := by
  obtain ⟨next, hcode⟩ := code_of_nextUpdate hinsert
  have hinit : (directLayer true).inv { db, store } := by
    intro other hgeneration
    exact absurd hgeneration Nat.zero_ne_one
  -- the insert is looked at as if it failed, which it always can
  have hexec : exec config.crypto conn (.update (.addPrivateMessageWithDelivery payload)) (.fail [])
      state.shared = some (.error [], state.shared) := rfl
  have hcond : (directLayer true).cond conn (.update (.addPrivateMessageWithDelivery payload))
      (.fail []) state.shared := by
    constructor
    · intro error herror
      cases herror
    · intro other task target _ _ _ hrevokes
      exact hrevokes
  exact (directLayer_sound true config.crypto).shown hinit hrun hcode hcond hexec rfl payload rfl

theorem run_messages {config : ServerConfig} {useCache : Bool} {db : Database} {store : Store}
    {events : List ServerEvent} {state : ServerConfiguration}
    (hrun : Run (server config useCache).next
      (fun state event => Undisturbed state event ∧ state.shared.unpublishedDirect event.tid = none)
      (initial db store) events state) :
    Run (server config useCache).next MessagesUndisturbed (initial db store) events state := by
  have hcaches := hrun.with_invariant TasksFinish (fun _ _ _ hinv _ hnext => hinv.next hnext)
    (tasksFinish_initial db store)
  have hholds := hcaches.with_invariant
    (Contract.Holds (server config useCache) (directLayer false).contract)
    (fun _ _ _ hholds hok hnext => hholds.next (directLayer_sound false config.crypto).launchOk
      (hok.2.1.caches hok.1).1 hnext)
    (Layer.Sound.holds_initial fun _ hgeneration => absurd hgeneration Nat.zero_ne_one)
  refine hholds.mono fun state event ⟨hholds, hfinish, hundisturbed, hown⟩ => ?_
  have hmeets := (hundisturbed.caches hfinish).1
  cases event with
  | start conn request => trivial
  | step conn choice =>
    refine Contract.meets_step fun action next hcode => ?_
    simp only [Contract.Meets, hcode] at hmeets
    cases action with
    | update update => exact hmeets
    | loadGeneration policy =>
      cases policy with
      | direct =>
        rintro - task - - - ⟨other, update, hunpublished, -⟩
        have hnone : state.shared.unpublishedDirect other = none := by
          by_cases heq : other = conn
          · rw [heq]
            exact hown
          · exact (Layer.Sound.idle hholds (hundisturbed.1 other heq)).unpublishedDirect
        rw [show state.shared.view.unpublishedDirect other = none from hnone] at hunpublished
        cases hunpublished
      | group => trivial
    | _ => trivial

def friendTables : Database where
  users := [(utf8 "amy", []), (utf8 "bob", [])]
  friendships := [(utf8 "amy", utf8 "bob")]

def amyEnters : List (Move ConnId Choice Request) :=
  serveMoves 0 .connect ++ serveMoves 0 (.login (utf8 "amy pw")) ++
    serveMoves 0 (.enterPrivate (utf8 "bob"))

def hello : ChatMessagePayload := ⟨.privateMessage, utf8 "amy", utf8 "bob", utf8 "hello", 0⟩

theorem privateMessage_permitted_alone :
    ∃ events state,
      Run (server scriptConfig true).next MessagesUndisturbed (initial friendTables {}) events
        state ∧
      nextUpdate state 0 = some (.addPrivateMessageWithDelivery hello) ∧
      state.shared.db.permits (utf8 "amy") (utf8 "bob") = true := by
  let check : ServerConfiguration → ServerEvent → Bool := fun state event =>
    onlyConn 0 event && decide (state.shared.unpublishedDirect 0 = none)
  have hscript : ((play (server scriptConfig true) usualChoice check (initial friendTables {})
      (amyEnters ++ [.start 0 (.privateMessage (utf8 "bob hello")), .steps 0 3])).any fun state =>
        decide (nextUpdate state 0 = some (.addPrivateMessageWithDelivery hello))) = true := by
    decide +kernel
  obtain ⟨events, state, hchecked, hinsert⟩ := play_reaches hscript
  have hcheck : ∀ state event, check state event = true → onlyConn 0 event = true ∧
      state.shared.unpublishedDirect 0 = none := by
    intro state event hok
    rw [Bool.and_eq_true] at hok
    exact ⟨hok.1, of_decide_eq_true hok.2⟩
  have halone := run_undisturbed (fun state event hok => (hcheck state event hok).1) hchecked
  have hrun := run_messages <| halone.mono fun state event ⟨hundisturbed, hok⟩ => by
    obtain ⟨honly, hunpublished⟩ := hcheck state event hok
    exact ⟨hundisturbed, by rw [tid_of_onlyConn honly]; exact hunpublished⟩
  exact ⟨events, state, hrun, of_decide_eq_true hinsert,
    privateMessage_permitted hrun (of_decide_eq_true hinsert)⟩

/-- **A stale permission.** Bob blocks Amy; before the change is published, a message of hers passes
on the cached permission and is stored. -/
theorem privateMessage_stored_despite_block :
    ∃ events state state',
      Run (server scriptConfig true).next anyStep (initial friendTables {}) events state ∧
      nextUpdate state 0 = some (.addPrivateMessageWithDelivery hello) ∧
      state.shared.db.isFriendBlocked (utf8 "bob") (utf8 "amy") = true ∧
      (server scriptConfig true).next state (.step 0 .proceed) = some state' ∧
      state.shared.db.messages = [] ∧
      state'.shared.db.messages.map StoredMessage.payload = [hello] := by
  have hscript : ((play (server scriptConfig true) usualChoice (fun _ _ => true)
      (initial friendTables {})
      (amyEnters ++ serveMoves 1 .connect ++ serveMoves 1 (.login (utf8 "bob pw")) ++
        [.start 1 (.blockFriend (utf8 "amy")), .steps 1 4,
          .start 0 (.privateMessage (utf8 "bob hello")), .steps 0 3])).any fun state =>
        decide (nextUpdate state 0 = some (.addPrivateMessageWithDelivery hello)) &&
        state.shared.db.isFriendBlocked (utf8 "bob") (utf8 "amy") &&
        decide (state.shared.db.messages = []) &&
        ((server scriptConfig true).next state (.step 0 .proceed)).any fun state' =>
          decide (state'.shared.db.messages.map StoredMessage.payload = [hello])) = true := by
    decide +kernel
  obtain ⟨events, state, hrun, htest⟩ := play_reaches hscript
  simp only [Bool.and_eq_true, decide_eq_true_eq] at htest
  obtain ⟨⟨⟨hinsert, hblocked⟩, hbefore⟩, hafter⟩ := htest
  cases hnext : (server scriptConfig true).next state (.step 0 .proceed) with
  | none =>
    rw [hnext] at hafter
    cases hafter
  | some state' =>
    rw [hnext] at hafter
    exact ⟨events, state, state', hrun.mono fun _ _ _ => trivial, hinsert, hblocked, hnext, hbefore,
      of_decide_eq_true hafter⟩

/-! ### The caches at quiescence -/

/-- **Cache soundness.** If no `ENTER_PRIVATE` and no `ENTER_GROUP` is overtaken by a change of what it
asks for, and no update takes effect and is reported as failed, then in every quiescent state each
cache with the current generation is right. -/
theorem caches_right_of_quiescent {config : ServerConfig} {db : Database} {store : Store}
    {events : List ServerEvent} {state : ServerConfiguration}
    (hrun : Run (server config true).next CachesUndisturbed (initial db store) events state)
    (hquiescent : state.shared.Quiescent) (conn : ConnId) :
    ((state.shared.sessions conn).realtimePrivateGeneration = state.shared.directPolicyGeneration →
      state.shared.db.permits (state.shared.sessions conn).username
        (state.shared.sessions conn).realtimePrivateTarget = true) ∧
    ((state.shared.sessions conn).realtimeGroupGeneration = state.shared.groupPolicyGeneration →
      state.shared.db.GroupCacheMatches (state.shared.sessions conn)) := by
  have hright := cachesRight_of_run hrun hquiescent conn
  exact ⟨hright.direct, hright.group⟩

def groupTables : Database :=
  { friendTables with
    groups := [⟨1, utf8 "team", utf8 "amy"⟩]
    members := [⟨1, utf8 "amy", .owner⟩, ⟨1, utf8 "bob", .member⟩]
    nextGroupId := 2 }

theorem caches_right_of_quiescent_alone :
    ∃ events state,
      Run (server scriptConfig true).next CachesUndisturbed (initial groupTables {}) events state ∧
      state.shared.Quiescent ∧
      (state.shared.sessions 0).realtimeGroupGeneration = state.shared.groupPolicyGeneration ∧
      (state.shared.sessions 0).realtimeGroupName = utf8 "team" ∧
      state.shared.db.GroupCacheMatches (state.shared.sessions 0) := by
  have hscript : ((play (server scriptConfig true) usualChoice (fun _ event => onlyConn 0 event)
      (initial groupTables {})
      (amyEnters ++ serveMoves 0 (.enterGroup (utf8 "team")))).any fun state =>
        (List.range 1).all (fun conn => (state.code conn).ended) &&
        decide ((state.shared.sessions 0).realtimeGroupGeneration =
          state.shared.groupPolicyGeneration) &&
        decide ((state.shared.sessions 0).realtimeGroupName = utf8 "team")) = true := by
    decide +kernel
  obtain ⟨events, state, hchecked, htest⟩ := play_reaches hscript
  simp only [Bool.and_eq_true, decide_eq_true_eq] at htest
  obtain ⟨⟨hended, hgeneration⟩, hname⟩ := htest
  have hrun := run_caches <| (run_undisturbed (fun _ _ honly => honly) hchecked).mono
    fun _ _ hok => hok.1
  have hquiescent := quiescent_of_ended (hchecked.mono fun _ _ _ => trivial)
    (ended_of_run (fun _ _ honly => by rw [tid_of_onlyConn honly]; exact Nat.one_pos) hchecked hended)
  exact ⟨events, state, hrun, hquiescent, hgeneration, hname,
    (caches_right_of_quiescent hrun hquiescent 0).2 hgeneration⟩

/-- **A stale cache.** Bob blocks Amy after her `ENTER_PRIVATE` has evaluated the permission and before
it reads the generation. When all handlers have ended, her cache has the current generation and
names a user she must not write to. -/
theorem private_cache_stale_at_quiescence :
    ∃ events state,
      Run (server scriptConfig true).next anyStep (initial friendTables {}) events state ∧
      state.shared.Quiescent ∧
      (state.shared.sessions 0).realtimePrivateGeneration = state.shared.directPolicyGeneration ∧
      state.shared.db.permits (state.shared.sessions 0).username
        (state.shared.sessions 0).realtimePrivateTarget = false := by
  have hscript : ((play (server scriptConfig true) usualChoice
      (fun _ event => decide (event.tid < 2)) (initial friendTables {})
      (serveMoves 0 .connect ++ serveMoves 0 (.login (utf8 "amy pw")) ++
        serveMoves 1 .connect ++ serveMoves 1 (.login (utf8 "bob pw")) ++
        [.start 0 (.enterPrivate (utf8 "bob")), .steps 0 4] ++
        serveMoves 1 (.blockFriend (utf8 "amy")) ++ [.steps 0 100])).any fun state =>
        (List.range 2).all (fun conn => (state.code conn).ended) &&
        decide ((state.shared.sessions 0).realtimePrivateGeneration =
          state.shared.directPolicyGeneration) &&
        decide (state.shared.db.permits (state.shared.sessions 0).username
          (state.shared.sessions 0).realtimePrivateTarget = false)) = true := by
    decide +kernel
  obtain ⟨events, state, hchecked, htest⟩ := play_reaches hscript
  simp only [Bool.and_eq_true, decide_eq_true_eq] at htest
  obtain ⟨⟨hended, hgeneration⟩, hpermits⟩ := htest
  have hrun : Run (server scriptConfig true).next anyStep (initial friendTables {}) events state :=
    hchecked.mono fun _ _ _ => trivial
  have hquiescent := quiescent_of_ended hrun
    (ended_of_run (fun _ _ hbound => of_decide_eq_true hbound) hchecked hended)
  exact ⟨events, state, hrun, hquiescent, hgeneration, hpermits⟩

end ChatRoom
