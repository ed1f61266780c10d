import ChatRoom.Lib.Sequential
import ChatRoom.Proof.Serial
import ChatRoom.Proof.Uploads

/-! # What a handler knows when it changes the tables -/

namespace ChatRoom

open Interleaving Handler Typestate Transition

variable {u : Update} {db : Database} {action : Act} {state : ServerConfiguration}
  {crypto : Crypto} {task : Task} {conn : ConnId} {config : ServerConfig} {useCache : Bool}

def Warranted (crypto : Crypto) (db : Database) (task : Task) (u : Update) : Prop :=
  u.routine = true ∨ Entitled crypto db task u

theorem Warranted.entitled (hwarranted : Warranted crypto db task u) (hroutine : u.routine = false) :
    Entitled crypto db task u :=
  hwarranted.resolve_left (Bool.eq_false_iff.mp hroutine)

theorem Update.not_routine_of_grouping (hgrouping : u.grouping = true) :
    u.routine = false := by
  cases u <;> first | rfl | cases hgrouping

/-- The discipline of a handler, up to the step that ends it. -/
def disciplineToEnd : Typestate Act Act.Result (Option Progress) where
  allowed k action := ∃ st, k = some st ∧ (action = .finish ∨ discipline.allowed st action)
  after
    | _, .finish, _ => none
    | k, action, result => k.map fun st => st.after action result

theorem disciplineToEnd_after {st : Progress} (hfinish : action ≠ .finish) (result : action.Result) :
    disciplineToEnd.after (some st) action result = some (st.after action result) := by
  cases action with
  | finish => exact absurd rfl hfinish
  | _ => rfl

theorem Disciplined.toEnd {handler : Handler Unit} (hdisciplined : Disciplined crypto task handler) :
    disciplineToEnd.Keeps (thenFinish handler) (some (task.start crypto)) fun _ _ => True := by
  refine keeps_bind.mpr ?_
  refine (hdisciplined.simulates (R := fun st k => k = some st) ?_ rfl).mono ?_
  · rintro st _ action rfl hallowed
    refine ⟨⟨st, rfl, .inr hallowed⟩, fun result => disciplineToEnd_after ?_ result⟩
    rintro rfl
    exact hallowed
  · rintro _ _ ⟨st, -, rfl⟩
    exact keeps_perform.mpr ⟨⟨st, rfl, .inl rfl⟩, fun _ => trivial⟩

/-! ### Runs of commands that run alone -/

/-- While a task runs alone, the tables answer as they did. -/
def Knows (crypto : Crypto) (k : Option Progress) (conn : ConnId) (s : Shared) : Prop :=
  ∀ st, k = some st → st.crypto = crypto ∧ s.running conn = some st.task ∧
    ∀ fact ∈ st.known, fact.Found s.db

theorem Effect.running {choice : Choice} {st st' : Progress} {v v' : View}
    (heffect : Effect conn choice st v action st' v') : v'.running = v.running := by
  cases heffect <;> rfl

theorem Knows.exec {k : Option Progress} {choice : Choice} {s s' : Shared} {result : action.Result}
    (hallowed : disciplineToEnd.allowed k action) (hknows : Knows crypto k conn s)
    (hexec : exec crypto conn action choice s = some (result, s')) :
    Knows crypto (disciplineToEnd.after k action result) conn s' := by
  obtain ⟨st, rfl, rfl | hallowed⟩ := hallowed
  · intro st' hnone
    cases hnone
  · have hfinish : action ≠ .finish := by
      rintro rfl
      exact hallowed
    rw [disciplineToEnd_after hfinish]
    rintro _ ⟨rfl⟩
    obtain ⟨hcrypto, hrunning, hknown⟩ := hknows st rfl
    have heffect := Effect.of_exec hallowed hexec
    have hkept := st.kept_after action result
    refine ⟨hkept.crypto.trans hcrypto, ?_, fun fact hfact => ?_⟩
    · rw [hkept.task, ← hrunning]
      exact congrFun heffect.running conn
    · rcases heffect.known_cases hfact with ⟨hold, hdb⟩ | ⟨-, hfound⟩
      · have hsame : s'.db = s.db := hdb
        rw [hsame]
        exact hknown fact hold
      · exact hfound

theorem server_describes :
    Describes (server config useCache) disciplineToEnd (Knows config.crypto) where
  launch := by
    intro conn request s prog s' hlaunch
    obtain ⟨task, handler, rfl, ⟨-, loopCalls, rfl, -⟩, hdisciplined⟩ := launch_cases hlaunch
    refine ⟨_, hdisciplined.toEnd, ?_⟩
    rintro _ ⟨rfl⟩
    exact ⟨rfl, Function.update_self _ _ _, fun fact hfact => absurd hfact List.not_mem_nil⟩
  exec := fun _ _ _ _ _ _ _ hallowed hknows hexec => hknows.exec hallowed hexec

structure Performs (crypto : Crypto) (task : Task) (u : Update) (db db' : Database) : Prop where
  warranted : Warranted crypto db task u
  applied : ∃ value, db.apply u = .ok (value, db')

/-- **A step either leaves the tables alone or performs a warranted update** of the task that is
running on its connection. -/
theorem performs_of_next {state' : ServerConfiguration} {event : ServerEvent}
    (hdescribed : Described disciplineToEnd (Knows config.crypto) state)
    (hnext : (server config useCache).next state event = some state') :
    state'.shared.db = state.shared.db ∨ ∃ conn choice task u, event = .step conn choice ∧
      state.shared.running conn = some task ∧
      Performs config.crypto task u state.shared.db state'.shared.db := by
  rcases tables_of_next hnext with hdb | ⟨conn, choice, u, next, value, rfl, hcode, -, happly⟩
  · exact .inl hdb
  · obtain ⟨_, ⟨st, rfl, hfinish | hallowed⟩, hknows⟩ := hdescribed.allowed hcode
    · cases hfinish
    · obtain ⟨hcrypto, hrunning, hknown⟩ := hknows st rfl
      refine .inr ⟨conn, choice, st.task, u, rfl, hrunning, ?_, value, happly⟩
      rw [← hcrypto]
      exact hallowed.2.1.imp_right fun hentitles => hentitles _ hknown

theorem described_of_run {store : Store} {events : List ServerEvent}
    (hrun : Run (server config useCache).next Alone (initial db store) events state) :
    Described disciplineToEnd (Knows config.crypto) state :=
  (Described.of_idle fun _ => rfl).run server_describes hrun

theorem tables_invariant {I : Database → Prop}
    (hstep : ∀ task u db db', Performs config.crypto task u db db' → I db → I db') {store : Store}
    {events : List ServerEvent} (hstart : I db)
    (hrun : Run (server config useCache).next Alone (initial db store) events state) :
    I state.shared.db := by
  have hdescribed := hrun.with_invariant (Described disciplineToEnd (Knows config.crypto))
    (fun _ _ _ hinv halone hnext => hinv.next server_describes halone hnext)
    (Described.of_idle fun _ => rfl)
  refine hdescribed.invariant (fun state => I state.shared.db) ?_ hstart
  rintro state event state' hinv ⟨hdescribed, -⟩ hnext
  rcases performs_of_next hdescribed hnext with hdb | ⟨_, _, task, u, -, -, hperforms⟩
  · rw [hdb]
    exact hinv
  · exact hstep task u _ _ hperforms hinv

end ChatRoom
