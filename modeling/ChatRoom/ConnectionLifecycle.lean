import ChatRoom.Proof.Lifecycle

/-! # The life of a connection -/

namespace ChatRoom.Net

open Transition

variable {Callback Owner Outcome Task : Type}

section Lives

variable {files : Bytes → Bytes} {user : User Callback Owner Outcome Task}
  {s s' : Life Callback Owner} {input : Input Callback Outcome Task}

theorem machine_stays_closed {m m' : Machine Callback Owner} (hnext : m.next files user input = some m')
    (hdown : m.conn.state = .disconnected) : m'.conn.state = .disconnected := by
  cases Machine.next_cases hnext with
  | post call => exact (continues_post call).1.closed.mpr hdown
  | background task => exact (continues_posts _).1.closed.mpr hdown
  | wake _ c more hidle hwake =>
    by_cases hnew : input = .connectEstablished
    · subst hnew
      simp [wake, hdown] at hwake
    · exact (wake_tells hwake hnew).1.closed.mpr hdown
  | complete _ unit rest _ hstack hcomplete =>
    obtain ⟨-, -, hconn, -⟩ := Machine.complete_cases hcomplete
    rwa [hconn]
  | exec _ code rest more c hstack hexec => exact (exec_turn hexec).stays hdown

theorem Life.stays_closed {event : LifeEvent Callback Outcome Task}
    (hnext : s.next files user event = some s') (hdown : s.machine.conn.state = .disconnected) :
    s'.machine.conn.state = .disconnected := by
  cases event with
  | connectEstablished | functor | call =>
    simp only [Life.next] at hnext
    split at hnext
    · obtain ⟨machine, hmachine, rfl⟩ := Option.map_eq_some_iff.mp hnext
      exact machine_stays_closed hmachine hdown
    · cases hnext
  | post | background =>
    simp only [Life.next] at hnext
    split at hnext
    · cases hnext
    · obtain ⟨machine, hmachine, rfl⟩ := Option.map_eq_some_iff.mp hnext
      exact machine_stays_closed hmachine hdown
  | poll revents =>
    simp only [Life.next] at hnext
    split at hnext <;> cases hnext
    exact hdown
  | handleEvent =>
    simp only [Life.next] at hnext
    split at hnext
    · split at hnext
      · cases hnext
        exact hdown
      · obtain ⟨machine, hmachine, rfl⟩ := Option.map_eq_some_iff.mp hnext
        exact machine_stays_closed hmachine hdown
    · cases hnext
  | go input =>
    simp only [Life.next] at hnext
    split at hnext
    · cases hnext
    · split at hnext
      · obtain ⟨machine, hmachine, rfl⟩ := Option.map_eq_some_iff.mp hnext
        exact machine_stays_closed hmachine hdown
      · cases hnext
  | connectDestroyed =>
    simp only [Life.next] at hnext
    split at hnext <;> cases hnext
    simp [Life.connectDestroyed, hdown]

theorem mem_greeted (messages : Nat) (connected : Bool) :
    .connection connected ∈ greeted messages ↔ connected = true := by
  simp [greeted, List.mem_replicate]

/-- **The life of a connection.** In every run, plain or with TLS, whatever the system calls return and
the application does from the first connection callback on: the application has been told nothing, or
that the connection is there and then its messages, or beside that, last of all, that it is gone. Once
the connection is closed or destroyed, and no callback is under way, it has been told both or nothing.
`closeCallback_` is called once at most, and the state never leaves `kDisconnected`. -/
theorem connection_lifecycle (files : Bytes → Bytes) (user : User Callback Owner Outcome Task)
    (tls ktls : Bool) (owner : Owner) (events : List (LifeEvent Callback Outcome Task))
    (s : Life Callback Owner)
    (hrun : Run (fun s event => s.next files user event) anyStep { machine := .fresh tls ktls owner }
      events s) :
    (∃ messages, s.told = [] ∨ s.told = greeted messages ∨
        s.told = greeted messages ++ [.connection false]) ∧
      (s.destroyed = true ∨ s.machine.conn.state = .disconnected →
        .connectionCallback ∉ s.machine.stack →
        (.connection false ∈ s.told ↔ .connection true ∈ s.told)) ∧
      s.closeCallbacks ≤ 1 ∧
      ∀ event s', s.next files user event = some s' → s.machine.conn.state = .disconnected →
        s'.machine.conn.state = .disconnected := by
  have halive : Alive s :=
    hrun.invariant Alive (fun _ _ _ h _ hnext => h.next hnext) (alive_fresh tls ktls owner)
  refine ⟨?_, fun hend hover => ?_, halive.closes, fun event s' hnext => Life.stays_closed hnext⟩
  · cases halive.phase with
    | silent htold => exact ⟨0, .inl htold⟩
    | greeting _ htold => exact ⟨0, .inl htold⟩
    | present messages _ _ htold => exact ⟨messages, .inr (.inl htold)⟩
    | parting messages _ htold => exact ⟨messages, .inr (.inl htold)⟩
    | gone messages htold => exact ⟨messages, .inr (.inr htold)⟩
  · have hdown : s.machine.conn.state = .disconnected ∨ s.machine.conn.state = .connecting :=
      hend.elim halive.destroyed .inl
    cases halive.phase with
    | silent htold => simp [htold]
    | greeting _ htold => simp [htold]
    | present _ _ _ _ _ hstate => rcases hstate with hstate | hstate <;> simp [hstate] at hdown
    | parting _ _ _ _ _ hstack => exact absurd (hstack ▸ List.mem_cons_self) hover
    | gone messages htold => simp [htold, mem_greeted]

def shortLife : List (LifeEvent Unit Unit Unit) :=
  [.connectEstablished, .go .handshaken, .go (.calls []), .go .run, .go .run, .go (.sslPending false),
    .poll { input := true }, .handleEvent, .go .received, .go .wantRead, .go (.calls []), .go .run,
    .go .run, .poll { input := true, hup := true }, .handleEvent, .go .endOfStream, .go .run,
    .go (.calls []), .go .run, .go .run, .connectDestroyed]

theorem connection_lifecycle_short : ∃ s : Life Unit Unit,
    Run (fun s event => s.next (fun _ => []) passive event) anyStep
        { machine := .fresh true false () } shortLife s ∧
      s.told = greeted 1 ++ [.connection false] ∧ s.closeCallbacks ≤ 1 := by
  have htest : (replay (fun s event => s.next (fun _ => []) passive event) (fun _ _ => true)
      ({ machine := .fresh true false () } : Life Unit Unit) shortLife).any
      (fun s => s.told == greeted 1 ++ [.connection false]) = true := by
    decide +kernel
  have hcheck : ∀ (s : Life Unit Unit) (event : LifeEvent Unit Unit Unit),
      true = true → anyStep s event := fun _ _ _ => trivial
  obtain ⟨s, hrun, hs⟩ := replay_reaches hcheck htest
  obtain ⟨-, -, hcloses, -⟩ := connection_lifecycle (fun _ => []) passive true false () shortLife s hrun
  exact ⟨s, hrun, eq_of_beq hs, hcloses⟩

end Lives

end ChatRoom.Net
