import ChatRoom.Proof.Online
import ChatRoom.Proof.Serial

/-! # One session for each user -/

namespace ChatRoom

open Interleaving Transition

structure Current (s : Shared) (username : Bytes) (conn : ConnId) : Prop where
  stays : s.leaving conn = false
  connected : s.connected conn = true
  loggedIn : (s.sessions conn).loggedIn = true
  username : (s.sessions conn).username = username

instance (s : Shared) (username : Bytes) (conn : ConnId) : Decidable (Current s username conn) :=
  decidable_of_iff (s.leaving conn = false ∧ s.connected conn = true ∧
    (s.sessions conn).loggedIn = true ∧ (s.sessions conn).username = username)
    ⟨fun ⟨hstays, hup, hlogged, husername⟩ => ⟨hstays, hup, hlogged, husername⟩,
      fun ⟨hstays, hup, hlogged, husername⟩ => ⟨hstays, hup, hlogged, husername⟩⟩

theorem onlineRight_of_run {config : ServerConfig} {useCache : Bool} {db : Database} {store : Store}
    {events : List ServerEvent} {state : ServerConfiguration}
    (hrun : Run (server config useCache).next anyStep (initial db store) events state) :
    OnlineRight state.shared :=
  ((onlineLayer_sound config.crypto).run (onlineRight_initial db store)
    (Layer.run_meets onlineLayer (fun _ _ _ _ => trivial) hrun)).2

/-- **Single login.** However the steps of handlers interleave, a session that is logged in on a
connection that is up is the one that the registry finds for its user, so there is only one. While no
handler runs on a connection, the registry finds it only for the user of its session. -/
theorem single_login_per_process {config : ServerConfig} {useCache : Bool} {db : Database}
    {store : Store} {events : List ServerEvent} {state : ServerConfiguration}
    (hrun : Run (server config useCache).next anyStep (initial db store) events state)
    (username : Bytes) :
    (∀ conn, Current state.shared username conn → state.shared.findOnline username = some conn) ∧
      (∀ conn other, Current state.shared username conn → Current state.shared username other →
        conn = other) ∧
      ∀ conn, state.shared.findOnline username = some conn → state.shared.running conn = none →
        Current state.shared username conn := by
  have hright := onlineRight_of_run hrun
  have hfound : ∀ conn, Current state.shared username conn →
      state.shared.findOnline username = some conn := by
    intro conn hcurrent
    have hentry := hright.online conn hcurrent.stays hcurrent.connected hcurrent.loggedIn
    rw [hcurrent.username] at hentry
    exact Shared.findOnline_of_mem hright.keys hentry hcurrent.connected
  refine ⟨hfound, fun conn other hconn hother => ?_, fun conn hfinds hidle => ?_⟩
  · have hsame : some conn = some other := (hfound conn hconn).symm.trans (hfound other hother)
    exact Option.some.inj hsame
  · obtain ⟨hentry, hup⟩ := Shared.mem_of_findOnline hfinds
    obtain ⟨hlogged, husername⟩ := hright.entered username conn hidle hentry
    exact ⟨Shared.leaving_of_idle hidle, hup, hlogged, husername⟩

def amyMovesOver : List (ConnId × Request) :=
  [(0, .connect), (0, .register (utf8 "amy pass")), (0, .login (utf8 "amy pass")), (1, .connect),
    (1, .login (utf8 "amy pass")), (0, .quit), (1, .login (utf8 "amy pass")), (0, .disconnect)]

theorem single_login_amy_moves_over :
    ∃ events state, Run (server scriptConfig true).next anyStep (initial {} {}) events state ∧
      Current state.shared (utf8 "amy") 1 ∧ state.shared.findOnline (utf8 "amy") = some 1 := by
  have hserved : ((serveAll (server scriptConfig true) usualFeed { db := {}, store := {} }
      (served amyMovesOver)).any fun s => decide (Current s (utf8 "amy") 1)) = true := by
    decide +kernel
  obtain ⟨events, state, hrun, -, htest⟩ := served_alone hserved
  have hany : Run (server scriptConfig true).next anyStep (initial {} {}) events state :=
    hrun.mono fun _ _ _ => trivial
  have hcurrent : Current state.shared (utf8 "amy") 1 := of_decide_eq_true htest
  exact ⟨events, state, hany, hcurrent, (single_login_per_process hany _).1 1 hcurrent⟩

end ChatRoom
