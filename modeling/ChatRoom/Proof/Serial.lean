import ChatRoom.Lib.Schedule
import ChatRoom.Proof.Direct
import ChatRoom.Proof.Group

/-! # Runs without interference -/

namespace ChatRoom

open Handler Interleaving Transition

variable {state : ServerConfiguration} {db : Database} {store : Store} {event : ServerEvent}
  {events : List ServerEvent}

def Choice.applies : Choice → Bool
  | .proceed | .failLate _ => true
  | _ => false

section Exec

variable {crypto : Crypto} {conn : ConnId} {choice : Choice} {s s' : Shared}

theorem exec_update {u : Update} {result : Except Bytes u.Result}
    (hexec : exec crypto conn (.update u) choice s = some (result, s')) :
    s'.running = s.running ∧ (s'.db = s.db ∨
      choice.applies = true ∧ ∃ value, s.db.apply u = .ok (value, s'.db)) := by
  cases choice <;> simp only [exec, Shared.execUpdate] at hexec <;> try cases hexec
  · split at hexec
    · rename_i value db happly
      cases hexec
      exact ⟨rfl, .inr ⟨rfl, value, happly⟩⟩
    · cases hexec
      exact ⟨rfl, .inl rfl⟩
    · cases hexec
  · exact ⟨rfl, .inl rfl⟩
  · split at hexec
    · rename_i value db happly
      cases hexec
      exact ⟨rfl, .inr ⟨rfl, value, happly⟩⟩
    · cases hexec

theorem exec_update_applied {u : Update} {result : Except Bytes u.Result} {value : u.Result}
    (happlies : choice.applies = true) (happly : s.db.apply u = .ok (value, db))
    (hexec : exec crypto conn (.update u) choice s = some (result, s')) : s'.db = db := by
  cases choice <;> simp only [exec, Shared.execUpdate, happly] at hexec <;> try cases happlies
  all_goals
    cases hexec
    rfl

theorem exec_frame {action : Act} {result : action.Result} (hupdate : ∀ u, action ≠ .update u)
    (hfinish : action ≠ .finish) (hexec : exec crypto conn action choice s = some (result, s')) :
    s'.db = s.db ∧ s'.running = s.running := by
  cases hvisible : action.visible with
  | false =>
    have hview := (execFrame_of_exec hexec).view hvisible
    exact ⟨congrArg View.db hview, congrArg View.running hview⟩
  | true =>
    cases action with
    | update u => exact absurd rfl (hupdate u)
    | finish => exact absurd rfl hfinish
    | lock mutex | unlock mutex =>
      cases choice <;> simp only [exec] at hexec <;> try cases hexec
      split at hexec <;> cases hexec
      cases mutex <;> exact ⟨rfl, rfl⟩
    | bumpGeneration policy =>
      cases choice <;> cases hexec
      cases policy <;> exact ⟨rfl, rfl⟩
    | assign a =>
      cases choice <;> cases hexec
      exact ⟨rfl, rfl⟩
    | _ => cases hvisible

theorem exec_running {action : Act} {result : action.Result}
    (hexec : exec crypto conn action choice s = some (result, s')) :
    s'.running = s.running ∨ s'.running = Function.update s.running conn none := by
  cases action with
  | update u => exact .inl (exec_update hexec).1
  | finish => exact .inr (congrArg Shared.running (exec_finish hexec))
  | _ => exact .inl (exec_frame (by simp) (by simp) hexec).2

end Exec

def TasksFinish (state : ServerConfiguration) : Prop :=
  ∀ conn, (state.code conn = .ret () ∧ state.shared.running conn = none) ∨
    ∃ handler, state.code conn = thenFinish handler

theorem TasksFinish.running_none (hfinish : TasksFinish state) {conn : ConnId}
    (hcode : state.code conn = .ret ()) : state.shared.running conn = none := by
  rcases hfinish conn with ⟨-, hrunning⟩ | ⟨handler, hhandler⟩
  · exact hrunning
  · rw [hcode] at hhandler
    cases handler <;> cases hhandler

theorem tasksFinish_initial (db : Database) (store : Store) : TasksFinish (initial db store) :=
  fun _ => .inl ⟨rfl, rfl⟩

variable {config : ServerConfig} {useCache : Bool}

theorem TasksFinish.next {state' : ServerConfiguration} (hfinish : TasksFinish state)
    (hnext : (server config useCache).next state event = some state') :
    TasksFinish state' := by
  intro other
  obtain ⟨conn, request, prog, rfl, -, hlaunch, hcode⟩ | ⟨conn, choice, action, next, result, rfl,
    hbefore, hexec, hcode⟩ := System.next_cases hnext
  · obtain ⟨task, handler, rfl, hstarted, -⟩ := launch_cases hlaunch
    by_cases heq : other = conn
    · subst heq
      exact .inr ⟨handler, by rw [hcode, Function.update_self]⟩
    · have hrunning : state'.shared.running other = state.shared.running other := by
        obtain ⟨-, loopCalls, hs', -⟩ := hstarted
        rw [hs']
        exact Function.update_of_ne heq _ _
      rw [hcode, Function.update_of_ne heq, hrunning]
      exact hfinish other
  · have hrunning := exec_running hexec
    by_cases heq : other = conn
    · subst heq
      rw [hcode, Function.update_self]
      rcases hfinish other with ⟨hidle, -⟩ | ⟨handler, hhandler⟩
      · rw [hbefore] at hidle
        cases hidle
      · rw [hbefore] at hhandler
        cases handler with
        | ret value =>
          -- the handler has returned, the action is the end of the task
          cases hhandler
          refine .inl ⟨rfl, ?_⟩
          rw [exec_finish hexec]
          exact Function.update_self _ _ _
        | act action' next' =>
          cases hhandler
          exact .inr ⟨next' result, rfl⟩
    · have hsame : state'.shared.running other = state.shared.running other := by
        rcases hrunning with hsame | hended
        · rw [hsame]
        · rw [hended, Function.update_of_ne heq]
      rw [hcode, Function.update_of_ne heq, hsame]
      exact hfinish other

/-- Every other connection is idle, and no update takes effect and is reported as failed. -/
def Undisturbed (state : ServerConfiguration) (event : ServerEvent) : Prop :=
  Alone state event ∧ ∀ conn error, event = .step conn (.failLate error) →
    ∀ update next, state.code conn ≠ .act (.update update) next

def CachesUndisturbed (state : ServerConfiguration) (event : ServerEvent) : Prop :=
  (directLayer false).contract.Meets state event ∧ groupLayer.contract.Meets state event

theorem Undisturbed.caches (hfinish : TasksFinish state) (hundisturbed : Undisturbed state event) :
    CachesUndisturbed state event := by
  obtain ⟨halone, hlate⟩ := hundisturbed
  cases event with
  | start conn request => exact ⟨trivial, trivial⟩
  | step conn choice =>
    have hidle : ∀ other task, other ≠ conn → state.shared.running other ≠ some task := by
      intro other task hne hrunning
      rw [hfinish.running_none (halone other hne)] at hrunning
      cases hrunning
    have hnever : ∀ {update next}, state.code conn = .act (.update update) next →
        ∀ error, choice ≠ .failLate error := by
      rintro update next hcode error rfl
      exact hlate conn error rfl update next hcode
    constructor
    · refine Contract.meets_step fun action next hcode => ?_
      cases action with
      | update update =>
        refine ⟨fun error herror => absurd herror (hnever hcode error), ?_⟩
        exact fun other task target hne hrunning => absurd hrunning (hidle other task hne)
      | loadGeneration policy =>
        cases policy with
        | direct => exact fun hsettled => nomatch hsettled
        | group => trivial
      | _ => trivial
    · refine Contract.meets_step fun action next hcode => ?_
      cases action with
      | update update =>
        refine ⟨fun error herror => absurd herror (hnever hcode error), ?_⟩
        exact fun other task name hne hrunning => absurd hrunning (hidle other task hne)
      | _ => trivial

/-- A cache of the current generation agrees with the tables. -/
structure CachesRight (s : Shared) (session : ClientSession) : Prop where
  direct : session.realtimePrivateGeneration = s.directPolicyGeneration →
    s.db.permits session.username session.realtimePrivateTarget = true
  group : session.realtimeGroupGeneration = s.groupPolicyGeneration →
    s.db.GroupCacheMatches session

theorem cachesRight_of_run
    (hrun : Run (server config useCache).next CachesUndisturbed (initial db store) events state)
    (hquiescent : state.shared.Quiescent) (conn : ConnId) :
    CachesRight state.shared (state.shared.sessions conn) := by
  have hdirect := (directLayer_sound false config.crypto).run
    (fun _ hgeneration => absurd hgeneration Nat.zero_ne_one)
    (hrun.mono fun _ _ hcaches => hcaches.1)
  have hgroup := (groupLayer_sound config.crypto).run
    (fun _ hgeneration => absurd hgeneration Nat.zero_ne_one)
    (hrun.mono fun _ _ hcaches => hcaches.2)
  constructor
  · intro hgeneration
    rcases hdirect.2 conn hgeneration with hpermits | ⟨other, update, hunpublished, -⟩
    · exact hpermits
    · rw [show state.shared.view.unpublishedDirect other = none from (hquiescent other).1]
        at hunpublished
      cases hunpublished
  · intro hgeneration
    rcases hgroup.2 conn hgeneration with hmatches | ⟨other, update, hunpublished⟩
    · exact hmatches
    · rw [show state.shared.view.unpublishedGroup other = none from (hquiescent other).2]
        at hunpublished
      cases hunpublished

theorem run_caches
    (hrun : Run (server config useCache).next Undisturbed (initial db store) events state) :
    Run (server config useCache).next CachesUndisturbed (initial db store) events state := by
  have hfinish := hrun.with_invariant TasksFinish
    (fun _ _ _ hinv _ hnext => hinv.next hnext) (tasksFinish_initial db store)
  exact hfinish.mono fun _ _ ⟨hinv, hundisturbed⟩ => hundisturbed.caches hinv

def onlyConn (conn : ConnId) : ServerEvent → Bool
  | .start other _ => other = conn
  | .step _ (.failLate _) => false
  | .step other _ => other = conn

theorem tid_of_onlyConn {conn : ConnId} (honly : onlyConn conn event = true) :
    event.tid = conn := by
  cases event with
  | start other request => exact of_decide_eq_true honly
  | step other choice =>
    cases choice with
    | failLate error => cases honly
    | _ => exact of_decide_eq_true honly

theorem run_undisturbed {conn : ConnId} {ok : ServerConfiguration → ServerEvent → Prop}
    (honly : ∀ state event, ok state event → onlyConn conn event = true)
    (hrun : Run (server config useCache).next ok (initial db store) events state) :
    Run (server config useCache).next (fun state event => Undisturbed state event ∧ ok state event)
      (initial db store) events state := by
  have hmoving : ∀ state event, ok state event → event.tid = conn :=
    fun state event hok => tid_of_onlyConn (honly state event hok)
  have halone := hrun.with_invariant (fun state => ∀ other, other ≠ conn → state.code other = .ret ())
    (fun _ _ _ hothers hok hnext => idle_next hothers (hmoving _ _ hok) hnext) (fun _ _ => rfl)
  refine halone.mono fun state event ⟨hothers, hok⟩ => ⟨⟨?_, ?_⟩, hok⟩
  · rw [Alone, hmoving state event hok]
    exact hothers
  · rintro other error rfl
    exact nomatch honly state _ hok

/-! ### Scripts -/

/-- Database calls, bookkeeping and the file system succeed, the clock stands still, and of Redis
only the claim of an online status is answered. -/
def usualChoice : Act → Choice
  | .now => .time 0
  | .hashPassword _ => .hashed (some [])
  | .redis (.claimPresence _) => .reply (.flag true)
  | .redis _ => .reply (.failed [])
  | .beginOrResumeUpload _ | .appendUploadBytes _ _ _ | .finalizeUpload _ | .cancelUpload _
  | .removeStored _ => .file .done
  | _ => .proceed

def uploadToken : Bytes := List.replicate 32 48

def emptyDigest : Bytes := utf8 "e3b0c44298fc1c149afbf4c8996fb92427ae41e4649b934ca495991b7852b855"

/-- Every password matches, the only file that is completed is the empty one, and times are not
shown. -/
def scriptConfig : ServerConfig where
  crypto := { verifyPassword := fun _ _ => true, sha256Hex := fun _ => emptyDigest }
  serverInstanceId := utf8 "one"
  formatUnixMs := fun _ => []

def serveMoves (conn : ConnId) (request : Request) : List (Move ConnId Choice Request) :=
  [.start conn request, .steps conn 100]

def usualFeed (action : Act) (answers : List Choice) : Option (Choice × List Choice) :=
  some (usualChoice action, answers)

def served (commands : List (ConnId × Request)) :
    List (Interleaving.Command ConnId Choice Request) :=
  commands.map fun (conn, request) => ⟨conn, request, []⟩

theorem served_alone {commands : List (ConnId × Request)} {test : Shared → Bool}
    (htest : (serveAll (server config useCache) usualFeed { db, store } (served commands)).any test =
      true) :
    ∃ events state, Run (server config useCache).next Alone (initial db store) events state ∧
      (∀ conn, state.code conn = .ret ()) ∧ test state.shared = true := by
  obtain ⟨s', hserve, htest⟩ := (Option.any_eq_true _ _).mp htest
  obtain ⟨events, hrun⟩ := serveAll_run hserve
  exact ⟨events, _, hrun.mono fun _ _ hserial => hserial.1, fun _ => rfl, htest⟩

theorem ended_of_run {count : Nat} {ok : ServerConfiguration → ServerEvent → Prop}
    (hmoving : ∀ state event, ok state event → event.tid < count)
    (hrun : Run (server config useCache).next ok (initial db store) events state)
    (hended : (List.range count).all (fun conn => (state.code conn).ended) = true) (conn : ConnId) :
    state.code conn = .ret () := by
  by_cases hlt : conn < count
  · exact Prog.eq_ret_of_ended (List.all_eq_true.mp hended conn (List.mem_range.mpr hlt))
  · have hothers := hrun.invariant (fun state => ∀ other, ¬other < count → state.code other = .ret ())
      (fun _ _ _ hothers hok hnext => idle_next hothers (hmoving _ _ hok) hnext) fun _ _ => rfl
    exact hothers conn hlt

def aloneAmong (count : Nat) (state : ServerConfiguration) (event : ServerEvent) : Bool :=
  decide (event.tid < count) &&
    (List.range count).all fun conn => conn = event.tid || (state.code conn).ended

theorem run_alone {count : Nat} (hrun : Run (server config useCache).next
      (fun state event => aloneAmong count state event = true) (initial db store) events state) :
    Run (server config useCache).next Alone (initial db store) events state := by
  have hmoving : ∀ state event, aloneAmong count state event = true → event.tid < count :=
    fun _ _ hcheck => of_decide_eq_true (Bool.and_eq_true_iff.mp hcheck).1
  have hothers := hrun.with_invariant
    (fun state => ∀ other, ¬other < count → state.code other = .ret ())
    (fun _ _ _ hothers hok hnext => idle_next hothers (hmoving _ _ hok) hnext) fun _ _ => rfl
  refine hothers.mono fun state event ⟨hidle, hcheck⟩ other hne => ?_
  by_cases hlt : other < count
  · have hall := List.all_eq_true.mp (Bool.and_eq_true_iff.mp hcheck).2 other
      (List.mem_range.mpr hlt)
    rw [Bool.or_eq_true, decide_eq_true_eq] at hall
    exact Prog.eq_ret_of_ended (hall.resolve_left hne)
  · exact hidle other hlt

def nextUpdate (state : ServerConfiguration) (conn : ConnId) : Option Update :=
  match state.code conn with
  | .act (.update update) _ => some update
  | _ => none

theorem code_of_nextUpdate {conn : ConnId} {update : Update}
    (hnext : nextUpdate state conn = some update) :
    ∃ next, state.code conn = .act (.update update) next := by
  unfold nextUpdate at hnext
  split at hnext
  · rename_i hcode
    cases hnext
    exact ⟨_, hcode⟩
  · cases hnext

theorem tables_of_next {state' : ServerConfiguration}
    (hnext : (server config useCache).next state event = some state') :
    state'.shared.db = state.shared.db ∨ ∃ conn choice u next value,
      event = .step conn choice ∧ state.code conn = .act (.update u) next ∧
      choice.applies = true ∧ state.shared.db.apply u = .ok (value, state'.shared.db) := by
  obtain ⟨conn, request, prog, rfl, -, hlaunch, -⟩ | ⟨conn, choice, action, next, result, rfl, hcode,
    hexec, -⟩ := System.next_cases hnext
  · obtain ⟨task, handler, -, ⟨-, loopCalls, hs', -⟩, -⟩ := launch_cases hlaunch
    rw [hs']
    exact .inl rfl
  · change exec config.crypto conn action choice state.shared = _ at hexec
    cases action with
    | update u =>
      rcases (exec_update hexec).2 with hdb | ⟨happlies, value, happly⟩
      · exact .inl hdb
      · exact .inr ⟨conn, choice, u, next, value, rfl, hcode, happlies, happly⟩
    | finish =>
      rw [exec_finish hexec]
      exact .inl rfl
    | _ => exact .inl (exec_frame (by simp) (by simp) hexec).1

/-! ### Serial histories -/

def Act.external : Act → Bool
  | .now | .hashPassword _ | .redis _ | .beginOrResumeUpload _ | .appendUploadBytes _ _ _
  | .finalizeUpload _ | .cancelUpload _ | .removeStored _ => true
  | _ => false

def feed (action : Act) (answers : List Choice) : Option (Choice × List Choice) :=
  if action.external then
    match answers with
    | [] => none
    | choice :: rest => some (choice, rest)
  else
    some (.proceed, answers)

theorem undisturbed_of_serial (hserial : SerialStep feed state event) : Undisturbed state event := by
  refine ⟨hserial.1, ?_⟩
  rintro conn error rfl update next hcode
  obtain ⟨action, next', answers, rest, hcode', hfeed⟩ := hserial.2 conn _ rfl
  rw [hcode] at hcode'
  cases hcode'
  cases hfeed

/-! ### Steps of a handler that runs alone -/

section Complete

variable {conn : ConnId} {s : Shared} {answers : List Choice} {α : Type}

theorem complete_loadGeneration (policy : Policy) (f : Nat → Handler α) :
    complete (server config useCache) feed conn (loadGeneration policy >>= f) s answers =
      complete (server config useCache) feed conn (f (s.generation policy)) s answers :=
  complete_act rfl rfl

theorem complete_query (q : Query) (hread : s.db.readError q = none)
    (f : Except Bytes q.Answer → Handler α) :
    complete (server config useCache) feed conn (query q >>= f) s answers =
      complete (server config useCache) feed conn (f (.ok (s.db.answer q))) s answers := by
  refine complete_act rfl ?_
  show some (s.db.read q, s) = some (.ok (s.db.answer q), s)
  rw [Database.read, hread]

theorem complete_assign (a : Assign) (f : Unit → Handler α) :
    complete (server config useCache) feed conn (assign a >>= f) s answers =
      complete (server config useCache) feed conn (f ())
        (s.setSession conn ((s.sessions conn).assign a)) answers :=
  complete_act rfl rfl

theorem complete_redis (call : RedisCall) (reply : RedisReply) (f : RedisReply → Handler α) :
    complete (server config useCache) feed conn (redis call >>= f) s (.reply reply :: answers) =
      complete (server config useCache) feed conn (f reply) s answers :=
  complete_act rfl rfl

theorem complete_currentSession (f : ClientSession → Handler α) :
    complete (server config useCache) feed conn (currentSession >>= f) s answers =
      complete (server config useCache) feed conn (f (s.sessions conn)) s answers :=
  complete_act rfl rfl

theorem complete_send {target : ConnId} {text : Bytes} (f : Unit → Handler α) :
    complete (server config useCache) feed conn (send target text >>= f) s answers =
      complete (server config useCache) feed conn (f ()) (s.sendText target text) answers :=
  complete_act rfl rfl

end Complete

end ChatRoom
