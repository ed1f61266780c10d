import ChatRoom.Permission

/-! # The fast path of `MSG` and `GROUP_MSG` -/

namespace ChatRoom

open Handler Interleaving Transition

variable {config : ServerConfig} {useCache : Bool} {conn : ConnId} {session : ClientSession}
  {s : Shared} {answers : List Choice} {α : Type}

/-! ### Permissions -/

theorem complete_evaluate {sender recipient : Bytes} (hpermits : s.db.permits sender recipient = true)
    (f : DirectMessageDecision → Handler α) :
    complete (server config useCache) feed conn (evaluate sender recipient >>= f) s answers =
      complete (server config useCache) feed conn (f .allowed) s answers := by
  simp only [Database.permits, Bool.and_eq_true, Bool.not_eq_true'] at hpermits
  obtain ⟨⟨⟨hexists, hfriends⟩, hrecipient⟩, hsender⟩ := hpermits
  simp only [evaluate, Prog.bind_assoc]
  rw [complete_query _ rfl, Database.answer, hexists]
  simp only [Prog.bind_assoc]
  rw [complete_query _ rfl, Database.answer, hfriends]
  simp only [Prog.bind_assoc]
  rw [complete_query _ rfl, Database.answer, hrecipient]
  simp only [Prog.bind_assoc]
  rw [complete_query _ rfl, Database.answer, hsender]
  rfl

theorem setSession_self {a : Assign} (hsame : (s.sessions conn).assign a = s.sessions conn) :
    s.setSession conn ((s.sessions conn).assign a) = s := by
  rw [hsame, Shared.setSession, Function.update_eq_self]

/-! ### The two handlers -/

/-- The session is the one the handler was called with, and its caches are right. -/
structure CachesReady (conn : ConnId) (session : ClientSession) (s : Shared) : Prop
    extends CachesRight s session where
  session_eq : s.sessions conn = session

theorem storePrivateMessage_same (payload : ChatMessagePayload) :
    SameFrom (server config useCache) feed conn (CachesReady conn session)
      (storePrivateMessage true conn session payload)
      (storePrivateMessage false conn session payload) := by
  intro s answers hready
  unfold storePrivateMessage
  rw [complete_loadGeneration, complete_loadGeneration]
  by_cases hcached : session.realtimePrivateTarget = payload.recipientUsername ∧
      session.realtimePrivateGeneration = s.generation .direct
  · obtain ⟨htarget, hgeneration⟩ := hcached
    have hpermits := hready.direct hgeneration
    rw [htarget] at hpermits
    have hself : (s.sessions conn).assign (.privateCache payload.recipientUsername
        (s.generation .direct)) = s.sessions conn := by
      rw [hready.session_eq, ← htarget, ← hgeneration]
      rfl
    simp only [htarget, hgeneration, decide_true, Bool.and_self, Bool.false_and, if_true,
      Bool.false_eq_true, if_false]
    rw [complete_evaluate hpermits]
    dsimp only
    rw [complete_assign, setSession_self hself]
    rfl
  · have hslow : (true && decide (session.realtimePrivateTarget = payload.recipientUsername) &&
        decide (session.realtimePrivateGeneration = s.generation .direct)) = false := by
      simpa using hcached
    rw [hslow]
    rfl

theorem groupRecipients_same (groupName : Bytes) :
    SameFrom (server config useCache) feed conn (CachesReady conn session)
      (groupRecipients true conn session groupName)
      (groupRecipients false conn session groupName) := by
  intro s answers hready
  unfold groupRecipients
  rw [complete_loadGeneration, complete_loadGeneration]
  by_cases hcached : session.realtimeGroupName = groupName ∧ session.realtimeGroupId ≠ 0 ∧
      session.realtimeGroupGeneration = s.generation .group
  · obtain ⟨rfl, hid, hgeneration⟩ := hcached
    obtain ⟨info, hinfo, hinfoId, hmember, hrecipients⟩ := hready.group hgeneration
    obtain ⟨role, hrole⟩ := Option.isSome_iff_exists.mp (Database.isSome_getGroupRole.mpr hmember)
    have hself : (s.sessions conn).assign (.groupCache session.realtimeGroupName info.id
        ((s.db.listGroupMemberUsernames session.realtimeGroupName).filter
          fun member => member ≠ session.username) (s.generation .group)) = s.sessions conn := by
      rw [hready.session_eq, hinfoId, ← hrecipients, ← hgeneration]
      rfl
    simp only [hid, hgeneration, decide_true, Bool.and_self, Bool.false_and, if_true,
      Bool.false_eq_true, if_false, ne_eq, not_false_eq_true]
    rw [complete_query _ rfl, Database.answer, hinfo]
    dsimp only
    rw [complete_query _ rfl, Database.answer, hrole]
    dsimp only
    rw [complete_query _ rfl, Database.answer]
    dsimp only
    rw [complete_assign, setSession_self hself, hinfoId, ← hrecipients]
  · have hslow : (true && decide (session.realtimeGroupName = groupName) &&
        decide (session.realtimeGroupId ≠ 0) &&
        decide (session.realtimeGroupGeneration = s.generation .group)) = false := by
      simpa [and_assoc] using hcached
    rw [hslow]
    rfl

theorem CachesReady.of_now {result : Int} {rest : List Choice} {s' : Shared}
    (hready : CachesReady conn session s)
    (hnow : complete (server config useCache) feed conn nowUnixMs s answers =
      some (result, s', rest)) : CachesReady conn session s' := by
  obtain ⟨choice, hexec⟩ := exec_of_complete_perform hnow
  cases choice <;> cases hexec
  exact hready

theorem CachesReady.of_lock {mutex : Mutex} {result : Unit} {rest : List Choice} {s' : Shared}
    (hready : CachesReady conn session s)
    (hlock : complete (server config useCache) feed conn (act (.lock mutex)) s answers =
      some (result, s', rest)) : CachesReady conn session s' := by
  obtain ⟨choice, hexec⟩ := exec_of_complete_perform hlock
  cases choice <;> simp only [server, exec] at hexec <;> try cases hexec
  split at hexec <;> cases hexec
  cases mutex with
  | friend => exact { hready with }
  | group => exact { hready with }

theorem handlePrivateMessage_same (arguments : Bytes) :
    SameFrom (server config useCache) feed conn (CachesReady conn session)
      (handlePrivateMessage true conn session arguments)
      (handlePrivateMessage false conn session arguments) := by
  unfold handlePrivateMessage requireLogin
  split
  · split
    · exact .refl _ _
    · split
      · exact .refl _ _
      · split
        · exact .refl _ _
        · split
          · exact .refl _ _
          · split
            · exact .refl _ _
            · refine SameFrom.after (fun _ _ _ _ _ hready => hready.of_now) fun now => ?_
              refine SameFrom.before ?_ _
              refine SameFrom.after (fun _ _ _ _ _ hready => hready.of_lock) fun _ => ?_
              exact SameFrom.before (storePrivateMessage_same _) _
  · exact .refl _ _

theorem handleGroupMessage_same (arguments : Bytes) :
    SameFrom (server config useCache) feed conn (CachesReady conn session)
      (handleGroupMessage true conn session arguments)
      (handleGroupMessage false conn session arguments) := by
  unfold handleGroupMessage requireLogin
  split
  · split
    · exact .refl _ _
    · split
      · exact .refl _ _
      · split
        · exact .refl _ _
        · split
          · exact .refl _ _
          · exact SameFrom.before (groupRecipients_same _) _
  · exact .refl _ _

/-! ### Histories -/

theorem exec_server : (server config true).exec = (server config false).exec := rfl

theorem serve_same_of_route {request : Request} (hrequest : request ≠ .loopCall)
    (hsame : SameFrom (server config true) feed conn (CachesReady conn (s.sessions conn))
      (route config true conn (s.sessions conn) request)
      (route config false conn (s.sessions conn) request))
    (hright : CachesRight s (s.sessions conn)) :
    serve (server config true) feed s ⟨conn, request, answers⟩ =
      serve (server config false) feed s ⟨conn, request, answers⟩ := by
  have hlaunch : ∀ useCache, (server config useCache).launch conn request s = _ :=
    fun useCache => launch_route hrequest
  simp only [serve, hlaunch]
  by_cases hadmissible : admissible s conn request = true
  · have hready : CachesReady conn (s.sessions conn)
        (s.start conn ⟨conn, request, s.sessions conn, none⟩) := { hright with session_eq := rfl }
    simp only [hadmissible, if_true]
    rw [thenFinish, thenFinish, SameFrom.before hsame _ _ _ hready, complete_congr exec_server]
  · simp only [hadmissible, if_false, Bool.false_eq_true]

theorem serve_same (hright : ∀ conn, CachesRight s (s.sessions conn))
    (command : Interleaving.Command ConnId Choice Request) :
    serve (server config true) feed s command = serve (server config false) feed s command := by
  obtain ⟨conn, request, answers⟩ := command
  cases request with
  | privateMessage arguments =>
    exact serve_same_of_route (by simp) (handlePrivateMessage_same arguments) (hright conn)
  | groupMessage arguments =>
    exact serve_same_of_route (by simp) (handleGroupMessage_same arguments) (hright conn)
  | loopCall =>
    have hlaunch : (server config true).launch conn .loopCall s =
        (server config false).launch conn .loopCall s := rfl
    simp only [serve, hlaunch, complete_congr exec_server]
  | _ => exact serve_same_of_route (by simp) (.refl _ _) (hright conn)

/-- **Fast path and slow path.** The server that consults the caches and the one that never does go
through the same states on every serial history: they store and deliver the same messages and send
the same answers. -/
theorem fast_path_eq_slow_path (config : ServerConfig) (db : Database) (store : Store)
    (history : List (Interleaving.Command ConnId Choice Request)) :
    serveAll (server config true) feed { db, store } history =
      serveAll (server config false) feed { db, store } history := by
  refine serveAll_congr (fun s => ∃ events, Run (server config true).next (SerialStep feed)
    (initial db store) events ⟨s, fun _ => .ret ()⟩) ?_ ?_ ?_ history
  · rintro s command s' ⟨events, hrun⟩ hserve
    obtain ⟨events', hrun'⟩ := serve_run hserve
    exact ⟨_, hrun.trans hrun'⟩
  · rintro s command ⟨events, hrun⟩
    have hundisturbed := hrun.mono fun _ _ hserial => undisturbed_of_serial hserial
    have hquiescent := quiescent_of_ended (hrun.mono fun _ _ _ => trivial) fun _ => rfl
    exact serve_same (cachesRight_of_run (run_caches hundisturbed) hquiescent) command
  · exact ⟨[], .nil⟩

-- Amy's message takes the fast path, Redis answers nothing but her login
example : (serveAll (server scriptConfig true) feed { db := friendTables }
    [⟨0, .connect, []⟩, ⟨0, .login (utf8 "amy pw"), [.reply (.flag true), .reply (.failed [])]⟩,
      ⟨0, .enterPrivate (utf8 "bob"), []⟩,
      ⟨0, .privateMessage (utf8 "bob hello"), [.time 0, .reply (.failed [])]⟩]).map
        (fun s => s.db.messages.map StoredMessage.payload) = some [hello] := by decide +kernel

end ChatRoom
