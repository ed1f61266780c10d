import ChatRoom.Threads.Pool
import Mathlib.Algebra.BigOperators.Group.Finset.Piecewise
import Mathlib.Algebra.Order.BigOperators.Group.Finset
import Mathlib.Data.Fintype.BigOperators

/-! # The books of the thread pool -/

namespace ChatRoom.ThreadPool

theorem sum_update_add {ι α M : Type} [Fintype ι] [DecidableEq ι] [AddCommMonoid M] (f : α → M)
    (g : ι → α) (i : ι) (a : α) :
    (∑ j, f (Function.update g i a j)) + f (g i) = (∑ j, f (g j)) + f a := by
  have hupdate : (fun j => f (Function.update g i a j)) = Function.update (fun j => f (g j)) i (f a) := by
    funext j
    by_cases hj : j = i
    · subst hj
      simp
    · simp [hj]
  calc
    (∑ j, f (Function.update g i a j)) + f (g i) =
        f a + ∑ j ∈ Finset.univ \ {i}, f (g j) + f (g i) := by
      rw [hupdate, Finset.sum_update_of_mem (Finset.mem_univ i)]
    _ = (∑ j, f (g j)) + f a := by
      rw [Finset.sdiff_singleton_eq_erase, add_assoc, Finset.sum_erase_add _ _ (Finset.mem_univ i),
        add_comm]

/-! ### The steps -/

section Steps

variable {n : Nat} {Client : Type} [DecidableEq Client]

/-- The moves of the pool, with what each of them requires. -/
inductive Move (s : Pool n Client) : Event n Client → Pool n Client → Prop where
  | refuse {client : Client} : s.clients client = .idle → s.accepting = false →
      Move s (.submit client) s
  | submit {client : Client} : s.clients client = .idle → s.accepting = true →
      Move s (.submit client)
        ({ s with tasks := s.tasks ++ [s.accepted], accepted := s.accepted + 1 }.setClient client
          .notifying)
  | notifyNobody {client : Client} : s.clients client = .notifying →
      (∀ worker, s.workers worker ≠ .waiting) →
      Move s (.notifyOne client none) (s.setClient client .idle)
  | notifyOne {client : Client} {worker : Fin n} : s.clients client = .notifying →
      s.workers worker = .waiting →
      Move s (.notifyOne client (some worker)) ((s.setWorker worker .checking).setClient client .idle)
  | waitAll {client : Client} : s.clients client = .idle →
      Move s (.waitAll client) (s.setClient client .testing)
  | returns {client : Client} : s.clients client = .testing → s.tasks = [] → s.activeTasks = 0 →
      Move s (.test client) (s.setClient client .idle)
  | waits {client : Client} : s.clients client = .testing → s.tasks ≠ [] ∨ s.activeTasks ≠ 0 →
      Move s (.test client) (s.setClient client .waiting)
  | shutdownAgain {client : Client} : s.clients client = .idle → s.stopping = true →
      Move s (.shutdown client) s
  | shutdown {client : Client} : s.clients client = .idle →
      Move s (.shutdown client)
        ({ s with accepting := false, stopping := true }.setClient client .stopping)
  | notifyAll {client : Client} : s.clients client = .stopping →
      Move s (.notifyAll client) (s.wakeWorkers.setClient client (.joining 0))
  | join {client : Client} (worker : Fin n) : s.clients client = .joining worker →
      s.workers worker = .exited →
      Move s (.join client) (s.setClient client (.joining (worker + 1)))
  | joined {client : Client} {count : Nat} : s.clients client = .joining count → n ≤ count →
      Move s (.join client) { s.setClient client .idle with stopped := true }
  | joinThrows {client : Client} {count : Nat} : s.clients client = .joining count →
      Move s (.joinThrows client) (s.setClient client .idle)
  | exit {worker : Fin n} : s.workers worker = .checking → s.stopping = true → s.tasks = [] →
      Move s (.take worker) (s.setWorker worker .exited)
  | sleep {worker : Fin n} : s.workers worker = .checking → s.stopping = false → s.tasks = [] →
      Move s (.take worker) (s.setWorker worker .waiting)
  | take {worker : Fin n} {task : Nat} {tasks : List Nat} : s.workers worker = .checking →
      s.tasks = task :: tasks →
      Move s (.take worker) { s.setWorker worker (.running task) with
        tasks
        activeTasks := s.activeTasks + 1
        started := s.started ++ [task] }
  | taskEnds {worker : Fin n} {task : Nat} : s.workers worker = .running task →
      Move s (.taskEnds worker)
        { s.setWorker worker .reporting with finished := s.finished ++ [task] }
  | report {worker : Fin n} : s.workers worker = .reporting →
      s.tasks ≠ [] ∨ s.activeTasks - 1 ≠ 0 →
      Move s (.report worker)
        { s.setWorker worker .checking with activeTasks := s.activeTasks - 1 }
  | reportLast {worker : Fin n} : s.workers worker = .reporting →
      Move s (.report worker)
        { s.wakeClients.setWorker worker .checking with activeTasks := s.activeTasks - 1 }
  | wakeWorker {worker : Fin n} : s.workers worker = .waiting →
      Move s (.wakeWorker worker) (s.setWorker worker .checking)
  | wakeClient {client : Client} : s.clients client = .waiting →
      Move s (.wakeClient client) (s.setClient client .testing)

theorem next_cases {s s' : Pool n Client} {event : Event n Client} (hnext : s.next event = some s') :
    Move s event s' := by
  cases event with
  | submit client =>
    simp only [Pool.next] at hnext
    split at hnext <;> cases hnext
    unfold Pool.submit
    split
    · exact .submit ‹_› ‹_›
    · rename_i hidle hrefusing
      exact .refuse hidle (Bool.eq_false_of_not_eq_true hrefusing)
  | notifyOne client woken =>
    simp only [Pool.next] at hnext
    split at hnext
    · cases woken <;> simp only [Pool.notifyOne] at hnext <;> split at hnext <;> cases hnext
      · exact .notifyNobody ‹_› ‹_›
      · exact .notifyOne ‹_› ‹_›
    · cases hnext
  | test client =>
    simp only [Pool.next] at hnext
    split at hnext <;> cases hnext
    unfold Pool.test
    split
    · rename_i htesting hrest
      exact .returns htesting hrest.1 hrest.2
    · rename_i htesting hbusy
      exact .waits htesting (not_and_or.mp hbusy)
  | shutdown client =>
    simp only [Pool.next] at hnext
    split at hnext <;> cases hnext
    unfold Pool.shutdown
    split
    · exact .shutdownAgain ‹_› ‹_›
    · exact .shutdown ‹_›
  | join client =>
    simp only [Pool.next] at hnext
    split at hnext
    · rename_i count hclient
      unfold Pool.join at hnext
      split at hnext
      · rename_i hmore
        split at hnext <;> cases hnext
        exact .join ⟨count, hmore⟩ hclient ‹_›
      · rename_i hall
        cases hnext
        exact .joined hclient (Nat.le_of_not_lt hall)
    · cases hnext
  | take worker =>
    simp only [Pool.next] at hnext
    split at hnext <;> cases hnext
    unfold Pool.take
    split
    · split
      · exact .exit ‹_› ‹_› ‹_›
      · rename_i hchecking _ hnone hrunning
        exact .sleep hchecking (Bool.eq_false_of_not_eq_true hrunning) hnone
    · exact .take ‹_› ‹_›
  | taskEnds worker =>
    simp only [Pool.next] at hnext
    split at hnext <;> cases hnext
    exact .taskEnds ‹_›
  | report worker =>
    simp only [Pool.next] at hnext
    split at hnext <;> cases hnext
    unfold Pool.report
    dsimp only
    split
    · exact .reportLast ‹_›
    · rename_i hreporting hbusy
      exact .report hreporting (not_and_or.mp hbusy)
  | joinThrows client =>
    simp only [Pool.next] at hnext
    split at hnext <;> cases hnext
    exact .joinThrows ‹_›
  | waitAll client =>
    simp only [Pool.next] at hnext
    split at hnext <;> cases hnext
    exact .waitAll ‹_›
  | notifyAll client =>
    simp only [Pool.next] at hnext
    split at hnext <;> cases hnext
    exact .notifyAll ‹_›
  | wakeWorker worker =>
    simp only [Pool.next] at hnext
    split at hnext <;> cases hnext
    exact .wakeWorker ‹_›
  | wakeClient client =>
    simp only [Pool.next] at hnext
    split at hnext <;> cases hnext
    exact .wakeClient ‹_›

end Steps

/-! ### The invariant -/

variable {n : Nat} {Client : Type} {s s' : Pool n Client}

/-- **The invariant of the pool.** Tasks start in the order in which they were accepted, every task
is counted once, and no task is left without a worker that will look at it. -/
structure Sound (s : Pool n Client) : Prop where
  order : s.started ++ s.tasks = List.range s.accepted
  executed : (s.started : Multiset Nat) = s.finished + ∑ worker, (s.workers worker).tasks
  active : s.activeTasks = ∑ worker, (s.workers worker).active
  refusing : s.accepting = !s.stopping
  exited : ∀ worker, s.workers worker = .exited → s.stopping = true ∧ s.tasks = []
  seen : s.tasks ≠ [] → (∃ worker, (s.workers worker).awake = true) ∨
    ∃ client, s.clients client = .notifying
  waits : ∀ client, s.clients client = .waiting → s.tasks ≠ [] ∨ s.activeTasks ≠ 0
  joins : ∀ client count, s.clients client = .joining count →
    ∀ worker : Fin n, worker.val < count → s.workers worker = .exited
  stopped : s.stopped = true → ∀ worker, s.workers worker = .exited

theorem sound_start : Sound ({} : Pool n Client) where
  order := rfl
  executed := by simp [WorkerState.tasks]
  active := by simp [WorkerState.active]
  refusing := rfl
  exited := nofun
  seen := fun h => absurd rfl h
  waits := nofun
  joins := nofun
  stopped := nofun

section Clients

variable [DecidableEq Client] {client : Client} {state : ClientState}

theorem setClient_ne {other : Client} (hne : other ≠ client) :
    (s.setClient client state).clients other = s.clients other :=
  Function.update_of_ne hne _ _

theorem setClient_self : (s.setClient client state).clients client = state :=
  Function.update_self _ _ _

theorem Sound.setClient (h : Sound s)
    (hseen : s.clients client = .notifying → s.tasks ≠ [] →
      ∃ worker, (s.workers worker).awake = true)
    (hwaits : state = .waiting → s.tasks ≠ [] ∨ s.activeTasks ≠ 0)
    (hjoins : ∀ count, state = .joining count → ∀ worker : Fin n, worker.val < count →
      s.workers worker = .exited) : Sound (s.setClient client state) :=
  { h with
    seen := by
      intro hsome
      rcases h.seen hsome with hawake | ⟨other, hother⟩
      · exact .inl hawake
      · by_cases hne : other = client
        · subst hne
          exact .inl (hseen hother hsome)
        · exact .inr ⟨other, (setClient_ne hne).trans hother⟩
    waits := by
      intro other hother
      by_cases hne : other = client
      · subst hne
        exact hwaits (setClient_self.symm.trans hother)
      · exact h.waits other ((setClient_ne hne).symm.trans hother)
    joins := by
      intro other count hother
      by_cases hne : other = client
      · subst hne
        exact hjoins count (setClient_self.symm.trans hother)
      · exact h.joins other count ((setClient_ne hne).symm.trans hother) }

end Clients

section Workers

variable {worker : Fin n} {state : WorkerState}

theorem setWorker_ne {other : Fin n} (hne : other ≠ worker) :
    (s.setWorker worker state).workers other = s.workers other :=
  Function.update_of_ne hne _ _

theorem setWorker_self : (s.setWorker worker state).workers worker = state :=
  Function.update_self _ _ _

theorem exited_setWorker (hold : s.workers worker ≠ .exited) {other : Fin n}
    (hother : s.workers other = .exited) : (s.setWorker worker state).workers other = .exited := by
  have hne : other ≠ worker := by
    rintro rfl
    exact hold hother
  exact (setWorker_ne hne).trans hother

theorem Sound.setWorker (h : Sound s) (hold : s.workers worker ≠ .exited)
    (htasks : state.tasks = (s.workers worker).tasks)
    (hactive : state.active = (s.workers worker).active)
    (hexited : state = .exited → s.stopping = true ∧ s.tasks = [])
    (hawake : s.tasks ≠ [] → state.awake = true) : Sound (s.setWorker worker state) :=
  { h with
    executed := by
      have hsum := sum_update_add WorkerState.tasks s.workers worker state
      rw [htasks] at hsum
      exact h.executed.trans (congrArg _ (add_right_cancel hsum).symm)
    active := by
      have hsum := sum_update_add WorkerState.active s.workers worker state
      rw [hactive] at hsum
      exact h.active.trans (add_right_cancel hsum).symm
    exited := by
      intro other hother
      by_cases hne : other = worker
      · subst hne
        exact hexited (setWorker_self.symm.trans hother)
      · exact h.exited other ((setWorker_ne hne).symm.trans hother)
    seen := fun hsome => .inl ⟨worker, by
      rw [setWorker_self]
      exact hawake hsome⟩
    joins := fun client count hclient other hlt =>
      exited_setWorker hold (h.joins client count hclient other hlt)
    stopped := fun hstopped other => exited_setWorker hold (h.stopped hstopped other) }

end Workers

theorem Sound.wakeWorkers (h : Sound s) : Sound s.wakeWorkers := by
  have hsame : ∀ {M : Type} (f : WorkerState → M), f .checking = f .waiting →
      (fun worker => f (s.wakeWorkers.workers worker)) = fun worker => f (s.workers worker) := by
    intro M f hf
    funext worker
    simp only [Pool.wakeWorkers]
    split
    · rename_i hwaiting
      rw [hwaiting, hf]
    · rfl
  have hexited : ∀ worker, s.wakeWorkers.workers worker = .exited ↔ s.workers worker = .exited := by
    intro worker
    simp only [Pool.wakeWorkers]
    split
    · rename_i hwaiting
      simp [hwaiting]
    · rfl
  refine ⟨h.order, ?_, ?_, h.refusing, ?_, ?_, h.waits, ?_, ?_⟩
  · exact h.executed.trans (by rw [hsame WorkerState.tasks rfl]; rfl)
  · exact h.active.trans (by rw [hsame WorkerState.active rfl])
  · exact fun worker hworker => h.exited worker ((hexited worker).mp hworker)
  · intro hsome
    rcases h.seen hsome with ⟨worker, hawake⟩ | hnotifying
    · refine .inl ⟨worker, ?_⟩
      simp only [Pool.wakeWorkers]
      split
      · rfl
      · exact hawake
    · exact .inr hnotifying
  · intro client count hclient worker hlt
    exact (hexited worker).mpr (h.joins client count hclient worker hlt)
  · exact fun hstopped worker => (hexited worker).mpr (h.stopped hstopped worker)

theorem Sound.wakeClients (h : Sound s) : Sound s.wakeClients :=
  { h with
    seen := by
      intro hsome
      refine (h.seen hsome).imp_right fun ⟨client, hclient⟩ => ⟨client, ?_⟩
      simp [Pool.wakeClients, hclient]
    waits := by
      intro client hclient
      simp only [Pool.wakeClients] at hclient
      split at hclient
      · cases hclient
      · exact h.waits client hclient
    joins := by
      intro client count hclient
      simp only [Pool.wakeClients] at hclient
      split at hclient
      · cases hclient
      · exact h.joins client count hclient }

theorem Sound.take (h : Sound s) {worker : Fin n} {task : Nat} {tasks : List Nat}
    (hchecking : s.workers worker = .checking) (hsome : s.tasks = task :: tasks) :
    Sound { s.setWorker worker (.running task) with
      tasks
      activeTasks := s.activeTasks + 1
      started := s.started ++ [task] } := by
  have hold : s.workers worker ≠ .exited := by simp [hchecking]
  refine ⟨?_, ?_, ?_, h.refusing, ?_, ?_, ?_, ?_, ?_⟩
  · have horder := h.order
    rw [hsome] at horder
    show s.started ++ [task] ++ tasks = List.range s.accepted
    rw [← horder, List.append_assoc, List.singleton_append]
  · have hsum := sum_update_add WorkerState.tasks s.workers worker (.running task)
    rw [hchecking, show WorkerState.tasks .checking = 0 from rfl, add_zero] at hsum
    show ((s.started ++ [task] : List Nat) : Multiset Nat) = s.finished +
      ∑ other, (Function.update s.workers worker (.running task) other).tasks
    rw [hsum, ← add_assoc, ← h.executed, ← Multiset.coe_add]
    rfl
  · have hsum := sum_update_add WorkerState.active s.workers worker (.running task)
    rw [hchecking, show WorkerState.active .checking = 0 from rfl, add_zero, ← h.active] at hsum
    exact hsum.symm
  · intro other hother
    by_cases hne : other = worker
    · subst hne
      cases setWorker_self.symm.trans hother
    · have hempty := (h.exited other ((setWorker_ne hne).symm.trans hother)).2
      rw [hsome] at hempty
      cases hempty
  · exact fun _ => .inl ⟨worker, by rw [setWorker_self]; rfl⟩
  · exact fun _ _ => .inr (Nat.succ_ne_zero _)
  · exact fun client count hclient other hlt =>
      exited_setWorker hold (h.joins client count hclient other hlt)
  · exact fun hstopped other => exited_setWorker hold (h.stopped hstopped other)

theorem Sound.taskEnds (h : Sound s) {worker : Fin n} {task : Nat}
    (hrunning : s.workers worker = .running task) :
    Sound { s.setWorker worker .reporting with finished := s.finished ++ [task] } := by
  have hold : s.workers worker ≠ .exited := by simp [hrunning]
  refine ⟨h.order, ?_, ?_, h.refusing, ?_, ?_, h.waits, ?_, ?_⟩
  · have hsum := sum_update_add WorkerState.tasks s.workers worker .reporting
    rw [hrunning, show WorkerState.tasks .reporting = 0 from rfl, add_zero] at hsum
    show (s.started : Multiset Nat) = ((s.finished ++ [task] : List Nat) : Multiset Nat) +
      ∑ other, (Function.update s.workers worker .reporting other).tasks
    rw [h.executed, ← hsum, ← Multiset.coe_add, add_assoc, add_comm _ (WorkerState.tasks _)]
    rfl
  · have hsum := sum_update_add WorkerState.active s.workers worker .reporting
    rw [hrunning, show WorkerState.active (.running task) = WorkerState.active .reporting from rfl]
      at hsum
    exact h.active.trans (add_right_cancel hsum).symm
  · intro other hother
    by_cases hne : other = worker
    · subst hne
      cases setWorker_self.symm.trans hother
    · exact h.exited other ((setWorker_ne hne).symm.trans hother)
  · exact fun _ => .inl ⟨worker, by rw [setWorker_self]; rfl⟩
  · exact fun client count hclient other hlt =>
      exited_setWorker hold (h.joins client count hclient other hlt)
  · exact fun hstopped other => exited_setWorker hold (h.stopped hstopped other)

theorem Sound.release (h : Sound s) {worker : Fin n} (hreporting : s.workers worker = .reporting)
    (hwaits : ∀ client, s.clients client = .waiting → s.tasks ≠ [] ∨ s.activeTasks - 1 ≠ 0) :
    Sound { s.setWorker worker .checking with activeTasks := s.activeTasks - 1 } := by
  have hold : s.workers worker ≠ .exited := by simp [hreporting]
  refine ⟨h.order, ?_, ?_, h.refusing, ?_, ?_, hwaits, ?_, ?_⟩
  · have hsum := sum_update_add WorkerState.tasks s.workers worker .checking
    rw [hreporting, show WorkerState.tasks .checking = WorkerState.tasks .reporting from rfl] at hsum
    exact h.executed.trans (congrArg _ (add_right_cancel hsum).symm)
  · have hsum := sum_update_add WorkerState.active s.workers worker .checking
    rw [hreporting, show WorkerState.active .checking = 0 from rfl, add_zero, ← h.active] at hsum
    exact Nat.sub_eq_of_eq_add hsum.symm
  · intro other hother
    by_cases hne : other = worker
    · subst hne
      cases setWorker_self.symm.trans hother
    · exact h.exited other ((setWorker_ne hne).symm.trans hother)
  · exact fun _ => .inl ⟨worker, by rw [setWorker_self]; rfl⟩
  · exact fun client count hclient other hlt =>
      exited_setWorker hold (h.joins client count hclient other hlt)
  · exact fun hstopped other => exited_setWorker hold (h.stopped hstopped other)

theorem wakeClients_not_waiting (client : Client) : s.wakeClients.clients client ≠ .waiting := by
  simp only [Pool.wakeClients]
  split
  · nofun
  · assumption

theorem Sound.awake (h : Sound s) (hworkers : 0 < n) (hnone : ∀ worker, s.workers worker ≠ .waiting)
    (hsome : s.tasks ≠ []) : ∃ worker, (s.workers worker).awake = true := by
  refine ⟨⟨0, hworkers⟩, ?_⟩
  cases hstate : s.workers ⟨0, hworkers⟩ with
  | exited => exact absurd (h.exited _ hstate).2 hsome
  | waiting => exact absurd hstate (hnone _)
  | _ => rfl

theorem Sound.wakeWorker (h : Sound s) {worker : Fin n} (hwaiting : s.workers worker = .waiting) :
    Sound (s.setWorker worker .checking) :=
  h.setWorker (by simp [hwaiting]) (by simp [hwaiting, WorkerState.tasks])
    (by simp [hwaiting, WorkerState.active]) nofun fun _ => rfl

section Calls

variable [DecidableEq Client] {client : Client}

theorem Sound.submit (h : Sound s) (haccepting : s.accepting = true) :
    Sound ({ s with tasks := s.tasks ++ [s.accepted], accepted := s.accepted + 1 }.setClient client
      .notifying) := by
  have hrunning : s.stopping = false := by
    rw [h.refusing] at haccepting
    simpa using haccepting
  refine ⟨?_, h.executed, h.active, h.refusing, ?_, ?_, ?_, ?_, h.stopped⟩
  · show s.started ++ (s.tasks ++ [s.accepted]) = List.range (s.accepted + 1)
    rw [List.range_succ, ← h.order, List.append_assoc]
  · intro worker hexited
    exact absurd ((h.exited worker hexited).1) (by simp [hrunning])
  · exact fun _ => .inr ⟨client, setClient_self⟩
  · intro other _
    exact .inl (by simp [Pool.setClient])
  · intro other count hother
    by_cases hne : other = client
    · subst hne
      cases setClient_self.symm.trans hother
    · exact h.joins other count ((setClient_ne hne).symm.trans hother)

theorem Sound.next (h : Sound s) (hworkers : 0 < n) {event : Event n Client}
    (hnext : s.next event = some s') : Sound s' := by
  cases next_cases hnext with
  | refuse | shutdownAgain => exact h
  | submit _ haccepting => exact h.submit haccepting
  | notifyNobody _ hnone =>
    exact h.setClient (fun _ hsome => h.awake hworkers hnone hsome) nofun nofun
  | notifyOne _ hwaiting =>
    exact (h.wakeWorker hwaiting).setClient
      (fun _ _ => ⟨_, by rw [setWorker_self]; rfl⟩) nofun nofun
  | waitAll hclient | returns hclient | joinThrows hclient | wakeClient hclient =>
    exact h.setClient (by simp [hclient]) nofun nofun
  | waits hclient hbusy => exact h.setClient (by simp [hclient]) (fun _ => hbusy) nofun
  | shutdown hclient =>
    have hstopping : Sound { s with accepting := false, stopping := true } :=
      { h with
        refusing := rfl
        exited := fun worker hworker => ⟨rfl, (h.exited worker hworker).2⟩ }
    exact hstopping.setClient (fun hother => by cases hclient.symm.trans hother) nofun nofun
  | notifyAll hclient =>
    refine h.wakeWorkers.setClient (fun hother => ?_) nofun ?_
    · cases hclient.symm.trans hother
    · rintro _ ⟨⟩ worker hlt
      exact absurd hlt (Nat.not_lt_zero _)
  | join worker hclient hexited =>
    refine h.setClient (by simp [hclient]) nofun ?_
    rintro _ ⟨⟩ other hlt
    rcases Nat.lt_succ_iff_lt_or_eq.mp hlt with hlt | heq
    · exact h.joins _ _ hclient other hlt
    · rwa [Fin.ext heq]
  | @joined client count hclient hall =>
    have hidle : Sound (s.setClient client .idle) := h.setClient (by simp [hclient]) nofun nofun
    exact { hidle with
      stopped := fun _ worker => h.joins _ _ hclient worker (worker.isLt.trans_le hall) }
  | exit hchecking hstopping hnone =>
    exact h.setWorker (by simp [hchecking]) (by simp [hchecking, WorkerState.tasks])
      (by simp [hchecking, WorkerState.active]) (fun _ => ⟨hstopping, hnone⟩)
      fun hsome => absurd hnone hsome
  | sleep hchecking _ hnone =>
    exact h.setWorker (by simp [hchecking]) (by simp [hchecking, WorkerState.tasks])
      (by simp [hchecking, WorkerState.active]) nofun fun hsome => absurd hnone hsome
  | take hchecking hsome => exact h.take hchecking hsome
  | taskEnds hrunning => exact h.taskEnds hrunning
  | report hreporting hbusy => exact h.release hreporting fun _ _ => hbusy
  | reportLast hreporting =>
    exact h.wakeClients.release hreporting fun client hclient =>
      absurd hclient (wakeClients_not_waiting client)
  | wakeWorker hwaiting => exact h.wakeWorker hwaiting

end Calls

end ChatRoom.ThreadPool
