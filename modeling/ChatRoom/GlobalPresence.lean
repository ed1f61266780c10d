import ChatRoom.Proof.Presence
import ChatRoom.SingleLogin

/-!
# One server for each user

Servers that share one Redis agree on where a user is logged in through the user's presence key.
-/

namespace ChatRoom

open Interleaving Transition

def nextRemoval : Handler Unit → Option Bytes
  | Prog.act (.redis (.removePresenceIfOwned username)) _ => some username
  | _ => none

variable {ι : Type}

/-- The steps that give no key up while the user is registered on a connection of the server that is
up. -/
def LastLeaves (state : ClusterConfiguration ι) (event : ClusterEvent ι) : Prop :=
  ∀ username, nextRemoval (state.code event.tid) = some username →
    (state.shared.server event.tid.1).findOnline username = none

theorem LastLeaves.meets {configs : ι → ServerConfig} {state : ClusterConfiguration ι}
    {event : ClusterEvent ι} (hlast : LastLeaves state event) :
    (presenceContract configs).Meets state event := by
  cases event with
  | start thread request => trivial
  | step thread choice =>
    refine Contract.meets_step fun action next hcode username haction => hlast username ?_
    subst haction
    show nextRemoval (state.code thread) = some username
    rw [hcode]
    rfl

variable [DecidableEq ι]

/-- **Presence is owned.** If every key is given up by the last connection of its user, a server has
the key of each user who is logged in on one of its connections, so no other server has that user
logged in. -/
theorem presence_owned_by_server {configs : ι → ServerConfig} {useCache : Bool}
    (hnames : Function.Injective fun i => (configs i).serverInstanceId) {db : Database}
    {stores : ι → Store} {presence : Bytes → Option Bytes} {events : List (ClusterEvent ι)}
    {state : ClusterConfiguration ι}
    (hrun : Run (cluster configs useCache).next LastLeaves (clusterInitial db stores presence) events
      state) (username : Bytes) :
    (∀ i conn, Current (state.shared.server i) username conn →
        state.shared.presence username = some (configs i).serverInstanceId) ∧
      ∀ i conn j other, Current (state.shared.server i) username conn →
        Current (state.shared.server j) username other → i = j := by
  have hright := presenceRight_of_run hnames (hrun.mono fun _ _ hlast => hlast.meets)
  have howned : ∀ i conn, Current (state.shared.server i) username conn →
      state.shared.presence username = some (configs i).serverInstanceId := by
    intro i conn hcurrent
    have howns := hright.owned i conn hcurrent.stays hcurrent.connected hcurrent.loggedIn
    rw [hcurrent.username] at howns
    exact howns
  refine ⟨howned, fun i conn j other hi hj => hnames ?_⟩
  exact Option.some.inj ((howned i conn hi).symm.trans (howned j other hj))

def twoServers (second : Bool) : ServerConfig :=
  { scriptConfig with serverInstanceId := if second then utf8 "two" else utf8 "one" }

def noServerYet : ClusterConfiguration Bool := clusterInitial {} (fun _ => {}) fun _ => none

def clusterMoves (commands : List ((Bool × ConnId) × Request)) :
    List (Move (Bool × ConnId) Choice Request) :=
  commands.flatMap fun (thread, request) => [.start thread request, .steps thread 100]

def amyComesBack : List ((Bool × ConnId) × Request) :=
  [((false, 0), .connect), ((false, 0), .register (utf8 "amy pass")),
    ((false, 0), .login (utf8 "amy pass")), ((false, 0), .quit), ((false, 1), .connect),
    ((false, 1), .login (utf8 "amy pass"))]

theorem presence_owned_amy_comes_back :
    ∃ events state, Run (cluster twoServers true).next LastLeaves noServerYet events state ∧
      Current (state.shared.server false) (utf8 "amy") 1 ∧
      state.shared.presence (utf8 "amy") = some (utf8 "one") := by
  have hscript : ((play (cluster twoServers true) usualChoice
      (fun state event => (nextRemoval (state.code event.tid)).isNone) noServerYet
      (clusterMoves amyComesBack)).any fun state =>
        decide (Current (state.shared.server false) (utf8 "amy") 1)) = true := by
    decide +kernel
  obtain ⟨events, state, hchecked, htest⟩ := play_reaches hscript
  have hrun : Run (cluster twoServers true).next LastLeaves noServerYet events state := by
    refine hchecked.mono fun state event hnone username hremoves => ?_
    rw [hremoves] at hnone
    cases hnone
  have hcurrent := of_decide_eq_true htest
  have hnames : Function.Injective fun second => (twoServers second).serverInstanceId := by
    have hdistinct : (twoServers true).serverInstanceId ≠ (twoServers false).serverInstanceId := by
      decide
    rintro (_ | _) (_ | _) heq
    · rfl
    · exact absurd heq.symm hdistinct
    · exact absurd heq hdistinct
    · rfl
  exact ⟨events, state, hrun, hcurrent, (presence_owned_by_server hnames hrun _).1 false 1 hcurrent⟩

/-- **A late close.** The connection that Amy has quit closes after Amy has logged in on another one
of the same server. The server gives Amy's key up, and the other server logs Amy in as well. -/
theorem presence_lost_by_late_close :
    ∃ events state, Run (cluster twoServers true).next anyStep noServerYet events state ∧
      Current (state.shared.server false) (utf8 "amy") 1 ∧
      Current (state.shared.server true) (utf8 "amy") 0 ∧
      state.shared.presence (utf8 "amy") = some (utf8 "two") := by
  have hscript : ((play (cluster twoServers true) usualChoice (fun _ _ => true) noServerYet
      (clusterMoves (amyComesBack ++ [((false, 0), .disconnect), ((true, 0), .connect),
        ((true, 0), .login (utf8 "amy pass"))]))).any fun state =>
        decide (Current (state.shared.server false) (utf8 "amy") 1 ∧
          Current (state.shared.server true) (utf8 "amy") 0 ∧
          state.shared.presence (utf8 "amy") = some (utf8 "two"))) = true := by
    decide +kernel
  obtain ⟨events, state, hrun, htest⟩ := play_reaches hscript
  exact ⟨events, state, hrun.mono fun _ _ _ => trivial, of_decide_eq_true htest⟩

end ChatRoom
