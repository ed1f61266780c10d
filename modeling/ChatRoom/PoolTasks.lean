import ChatRoom.Lib.Executions
import ChatRoom.Proof.Pool

/-! # The tasks of the thread pool -/

namespace ChatRoom.ThreadPool

open Transition

variable {n : Nat} {Client : Type} [DecidableEq Client] {s s' : Pool n Client} {event : Event n Client}
variable {worker : Fin n}

/-! ### What a step changes -/

structure Grows (s s' : Pool n Client) : Prop where
  accepted : s.accepted ≤ s'.accepted
  refused : s.accepting = false → s'.accepting = false ∧ s'.accepted = s.accepted
  started : s.started.length ≤ s'.started.length
  finished : s.finished ⊆ s'.finished

omit [DecidableEq Client] in
theorem Grows.of_same (haccepted : s'.accepted = s.accepted) (haccepting : s'.accepting = s.accepting)
    (hstarted : s.started.length ≤ s'.started.length) (hfinished : s.finished ⊆ s'.finished) :
    Grows s s' :=
  ⟨haccepted.ge, fun h => ⟨haccepting.trans h, haccepted⟩, hstarted, hfinished⟩

theorem grows_next (hnext : s.next event = some s') : Grows s s' := by
  cases next_cases hnext with
  | submit _ haccepting =>
    exact ⟨Nat.le_succ _, fun h => absurd (h.symm.trans haccepting) Bool.false_ne_true, le_rfl,
      List.Subset.refl _⟩
  | shutdown => exact ⟨le_rfl, fun _ => ⟨rfl, rfl⟩, le_rfl, List.Subset.refl _⟩
  | take => exact .of_same rfl rfl (by simp) (List.Subset.refl _)
  | taskEnds => exact .of_same rfl rfl le_rfl (List.subset_append_left _ _)
  | _ => exact .of_same rfl rfl le_rfl (List.Subset.refl _)

omit [DecidableEq Client] in
theorem wakeWorkers_awake (hawake : (s.workers worker).awake = true) :
    s.wakeWorkers.workers worker = s.workers worker := by
  refine if_neg fun hwaiting => ?_
  rw [hwaiting] at hawake
  cases hawake

omit [DecidableEq Client] in
theorem ne_of_awake {other : Fin n} (hawake : (s.workers worker).awake = true)
    (hwaiting : s.workers other = .waiting) : worker ≠ other := by
  rintro rfl
  rw [hwaiting] at hawake
  cases hawake

theorem worker_stays (hnext : s.next event = some s') (hawake : (s.workers worker).awake = true)
    (hother : event.worker ≠ some worker) :
    s'.workers worker = s.workers worker := by
  cases next_cases hnext with
  | notifyOne _ hwaiting | wakeWorker hwaiting => exact setWorker_ne (ne_of_awake hawake hwaiting)
  | notifyAll => exact wakeWorkers_awake hawake
  | exit | sleep | take | taskEnds | report | reportLast =>
    exact setWorker_ne fun h => hother (congrArg some h.symm)
  | _ => rfl

theorem notifying_stays {client : Client} (hnext : s.next event = some s')
    (hnotifying : s.clients client = .notifying)
    (hother : ∀ woken, event ≠ .notifyOne client woken) : s'.clients client = .notifying := by
  have hne : ∀ {other : Client} {state : ClientState}, s.clients other = state →
      state ≠ .notifying → client ≠ other := by
    rintro other state hstate hne rfl
    exact hne (hstate.symm.trans hnotifying)
  cases next_cases hnext with
  | notifyNobody | notifyOne =>
    refine (setClient_ne ?_).trans hnotifying
    rintro rfl
    exact hother _ rfl
  | submit hclient | waitAll hclient | returns hclient | waits hclient | shutdown hclient
  | notifyAll hclient | join _ hclient | joined hclient | joinThrows hclient | wakeClient hclient =>
    exact (setClient_ne (hne hclient nofun)).trans hnotifying
  | reportLast => exact (if_neg (by simp [hnotifying])).trans hnotifying
  | _ => exact hnotifying

omit [DecidableEq Client] in
theorem Sound.inactive (h : Sound s) (hnone : s.activeTasks = 0) (worker : Fin n) :
    (s.workers worker).active = 0 :=
  Finset.sum_eq_zero_iff.mp (h.active.symm.trans hnone) worker (Finset.mem_univ worker)

theorem rest_of_returns {client : Client} (h : Sound s) (hnext : s.next event = some s')
    (hcall : s.clients client = .testing ∨ s.clients client = .waiting)
    (hreturned : s'.clients client = .idle) :
    s'.tasks = [] ∧ ∀ worker, (s'.workers worker).active = 0 := by
  have hbusy : s.clients client ≠ .idle := by rcases hcall with hcall | hcall <;> simp [hcall]
  -- a step of another client leaves this one where it is
  have hmoves : ∀ {other : Client} {state : ClientState},
      (s.setClient other state).clients client = .idle → client = other := by
    intro other state hidle
    by_contra hne
    exact hbusy ((setClient_ne hne).symm.trans hidle)
  have hne : ∀ {other : Client} {state : ClientState}, s.clients other = state →
      state ≠ .testing → state ≠ .waiting → client ≠ other := by
    rintro other state hstate htesting hwaiting rfl
    rcases hcall with hcall | hcall
    · exact htesting (hstate.symm.trans hcall)
    · exact hwaiting (hstate.symm.trans hcall)
  cases next_cases hnext with
  | returns _ hempty hnone => exact ⟨hempty, h.inactive hnone⟩
  | submit hclient | waitAll hclient | shutdown hclient | notifyAll hclient | join _ hclient
  | joined hclient | joinThrows hclient | notifyNobody hclient | notifyOne hclient =>
    exact absurd (hmoves hreturned) (hne hclient nofun nofun)
  | waits | wakeClient =>
    obtain rfl := hmoves hreturned
    cases setClient_self.symm.trans hreturned
  | reportLast =>
    change s.wakeClients.clients client = .idle at hreturned
    simp only [Pool.wakeClients] at hreturned
    split at hreturned
    · cases hreturned
    · exact absurd hreturned hbusy
  | _ => exact absurd hreturned hbusy

/-! ### Every accepted task is executed -/

structure Fair {start : Pool n Client} (x : Execution Pool.next start) : Prop where
  workers : ∀ k worker, ((x.states k).workers worker).awake = true →
    ∃ j ≥ k, ∃ event, x.events j = some event ∧ event.worker = some worker
  notifications : ∀ k client, (x.states k).clients client = .notifying →
    ∃ j ≥ k, ∃ event, x.events j = some event ∧ ∃ woken, event = .notifyOne client woken

structure Awaits (task : Nat) (s : Pool n Client) : Prop where
  sound : Sound s
  before : task ≤ s.started.length
  accepted : task < s.accepted

section Liveness

variable {start : Pool n Client} {x : Execution Pool.next start} {k task : Nat} (hworkers : 0 < n)

include hworkers in
theorem Awaits.next (h : Awaits task s) (hnext : s.next event = some s') : Awaits task s' :=
  have hgrows := grows_next hnext
  ⟨h.sound.next hworkers hnext, h.before.trans hgrows.started, h.accepted.trans_le hgrows.accepted⟩

omit [DecidableEq Client] in
theorem Awaits.started_of_empty (h : Awaits task s) (hempty : s.tasks = []) :
    task < s.started.length := by
  have horder := congrArg List.length h.sound.order
  rw [hempty, List.append_nil, List.length_range] at horder
  exact horder ▸ h.accepted

theorem worker_leads (hfair : Fair x) (Inv : Pool n Client → Prop) {Q : Pool n Client → Prop}
    {state : WorkerState} (hkeeps : ∀ s event s', Inv s → s.next event = some s' → Inv s')
    (hawake : state.awake = true)
    (hact : ∀ s event s', Inv s → s.workers worker = state → s.next event = some s' →
      event.worker = some worker → Q s')
    (hinv : Inv (x.states k)) (hstate : (x.states k).workers worker = state) :
    x.Eventually k Q := by
  refine Execution.leads (P := fun s => Inv s ∧ s.workers worker = state)
    (fun event => event.worker = some worker) ?_ ?_ ⟨hinv, hstate⟩
    (hfair.workers k worker (hstate ▸ hawake))
  · rintro s event s' ⟨hs, hworker⟩ hnext hother
    exact ⟨hkeeps s event s' hs hnext,
      (worker_stays hnext (hworker ▸ hawake) hother).trans hworker⟩
  · rintro s event s' ⟨hs, hworker⟩ hnext hown
    exact hact s event s' hs hworker hnext hown

include hworkers in
theorem started_of_checking (hfair : Fair x) (hawaits : Awaits task (x.states k))
    (hchecking : (x.states k).workers worker = .checking) :
    x.Eventually k fun s => task < s.started.length := by
  refine worker_leads hfair (Awaits task) (fun _ _ _ h => h.next hworkers) rfl ?_ hawaits hchecking
  intro s event s' hs hworker hnext hown
  cases next_cases hnext with
  | exit _ _ hempty | sleep _ _ hempty => exact hs.started_of_empty hempty
  | take =>
    show task < (s.started ++ [_]).length
    rw [List.length_append]
    exact Nat.lt_succ_of_le hs.before
  | taskEnds hother | report hother | reportLast hother =>
    cases hown
    cases hworker.symm.trans hother
  | _ => cases hown

include hworkers in
theorem started_of_reporting (hfair : Fair x) (hawaits : Awaits task (x.states k))
    (hreporting : (x.states k).workers worker = .reporting) :
    x.Eventually k fun s => task < s.started.length := by
  have hchecks : x.Eventually k fun s => Awaits task s ∧ s.workers worker = .checking := by
    refine worker_leads hfair (Awaits task) (fun _ _ _ h => h.next hworkers) rfl ?_ hawaits hreporting
    intro s event s' hs hworker hnext hown
    refine ⟨hs.next hworkers hnext, ?_⟩
    cases next_cases hnext with
    | report | reportLast =>
      cases hown
      exact setWorker_self
    | taskEnds hother | exit hother | sleep hother | take hother =>
      cases hown
      cases hworker.symm.trans hother
    | _ => cases hown
  exact hchecks.trans fun j _ h => started_of_checking hworkers hfair h.1 h.2

include hworkers in
theorem started_of_awake (hfair : Fair x) (hawaits : Awaits task (x.states k))
    (hawake : ((x.states k).workers worker).awake = true) :
    x.Eventually k fun s => task < s.started.length := by
  cases hstate : (x.states k).workers worker with
  | checking => exact started_of_checking hworkers hfair hawaits hstate
  | reporting => exact started_of_reporting hworkers hfair hawaits hstate
  | running current =>
    have hreports : x.Eventually k fun s => Awaits task s ∧ s.workers worker = .reporting := by
      refine worker_leads hfair (Awaits task) (fun _ _ _ h => h.next hworkers) rfl ?_ hawaits hstate
      intro s event s' hs hworker hnext hown
      refine ⟨hs.next hworkers hnext, ?_⟩
      cases next_cases hnext with
      | taskEnds =>
        cases hown
        exact setWorker_self
      | report hother | reportLast hother | exit hother | sleep hother | take hother =>
        cases hown
        cases hworker.symm.trans hother
      | _ => cases hown
    exact hreports.trans fun j _ h => started_of_reporting hworkers hfair h.1 h.2
  | waiting | exited =>
    rw [hstate] at hawake
    cases hawake

include hworkers in
theorem started_next (hfair : Fair x) (hawaits : Awaits task (x.states k)) :
    x.Eventually k fun s => task < s.started.length := by
  by_cases hempty : (x.states k).tasks = []
  · exact .now (hawaits.started_of_empty hempty)
  rcases hawaits.sound.seen hempty with ⟨worker, hawake⟩ | ⟨client, hclient⟩
  · exact started_of_awake hworkers hfair hawaits hawake
  -- the notification finds the queue empty, wakes a worker or finds one awake
  have hwakes : x.Eventually k fun s => Awaits task s ∧
      (task < s.started.length ∨ ∃ worker, (s.workers worker).awake = true) := by
    refine Execution.leads (P := fun s => Awaits task s ∧ s.clients client = .notifying)
      (fun event => ∃ woken, event = .notifyOne client woken) ?_ ?_ ⟨hawaits, hclient⟩
      (hfair.notifications k client hclient)
    · rintro s event s' ⟨hs, hnotifying⟩ hnext hother
      exact ⟨hs.next hworkers hnext,
        notifying_stays hnext hnotifying fun woken heq => hother ⟨woken, heq⟩⟩
    · rintro s _ s' ⟨hs, hnotifying⟩ hnext ⟨woken, rfl⟩
      refine ⟨hs.next hworkers hnext, ?_⟩
      cases next_cases hnext with
      | notifyNobody _ hnone =>
        by_cases hempty : s.tasks = []
        · exact .inl (hs.started_of_empty hempty)
        · exact .inr (hs.sound.awake hworkers hnone hempty)
      | @notifyOne _ worker =>
        refine .inr ⟨worker, ?_⟩
        change ((s.setWorker worker .checking).workers worker).awake = true
        rw [setWorker_self]
        rfl
  refine hwakes.trans fun j _ ⟨hs, hcase⟩ => ?_
  rcases hcase with hdone | ⟨worker, hawake⟩
  · exact .now hdone
  · exact started_of_awake hworkers hfair hs hawake

include hworkers in
theorem started_eventually (hfair : Fair x) (hsound : Sound (x.states k))
    (haccepted : task < (x.states k).accepted) :
    x.Eventually k fun s => task < s.started.length := by
  induction task with
  | zero => exact started_next hworkers hfair ⟨hsound, Nat.zero_le _, haccepted⟩
  | succ task ih =>
    refine (ih (Nat.lt_of_succ_lt haccepted)).trans fun j hj hbefore => ?_
    have hlater : Sound (x.states j) ∧ task + 1 < (x.states j).accepted :=
      Execution.stable (P := fun s => Sound s ∧ task + 1 < s.accepted)
        (fun _ _ _ h hnext =>
          ⟨h.1.next hworkers hnext, h.2.trans_le (grows_next hnext).accepted⟩)
        hj ⟨hsound, haccepted⟩
    exact started_next hworkers hfair ⟨hlater.1, hbefore, hlater.2⟩

omit [DecidableEq Client] in
theorem Sound.taken (h : Sound s) (hstarted : task < s.started.length) :
    task ∈ s.finished ∨ ∃ worker, s.workers worker = .running task := by
  have htask : task ∈ s.started := by
    have hget : (s.started ++ s.tasks)[task]? = some task := by
      rw [h.order]
      have hlength := congrArg List.length h.order
      rw [List.length_append, List.length_range] at hlength
      exact List.getElem?_range (by omega)
    rw [List.getElem?_append_left hstarted] at hget
    exact List.mem_of_getElem? hget
  have hmem : task ∈ (s.finished : Multiset Nat) + ∑ worker, (s.workers worker).tasks :=
    h.executed ▸ Multiset.mem_coe.mpr htask
  rcases Multiset.mem_add.mp hmem with hfinished | hrunning
  · exact .inl (Multiset.mem_coe.mp hfinished)
  · obtain ⟨worker, -, hworker⟩ := Multiset.mem_sum.mp hrunning
    refine .inr ⟨worker, ?_⟩
    cases hstate : s.workers worker with
    | running current =>
      rw [hstate] at hworker
      rw [Multiset.mem_singleton.mp hworker]
    | _ =>
      rw [hstate] at hworker
      exact absurd hworker (Multiset.notMem_zero _)

theorem finished_of_running (hfair : Fair x)
    (hrunning : (x.states k).workers worker = .running task) :
    x.Eventually k fun s => task ∈ s.finished := by
  refine worker_leads hfair (fun _ => True) (fun _ _ _ _ _ => trivial) rfl ?_ trivial hrunning
  intro s event s' _ hworker hnext hown
  cases next_cases hnext with
  | taskEnds hother =>
    cases hown
    cases hworker.symm.trans hother
    exact List.mem_append_right _ (List.mem_singleton_self _)
  | report hother | reportLast hother | exit hother | sleep hother | take hother =>
    cases hown
    cases hworker.symm.trans hother
  | _ => cases hown

include hworkers in
theorem finished_eventually (hfair : Fair x) (hsound : Sound (x.states k))
    (haccepted : task < (x.states k).accepted) : x.Eventually k fun s => task ∈ s.finished := by
  refine (started_eventually hworkers hfair hsound haccepted).trans fun j hj hstarted => ?_
  have hlater : Sound (x.states j) :=
    Execution.stable (fun _ _ _ h hnext => h.next hworkers hnext) hj hsound
  rcases hlater.taken hstarted with hfinished | ⟨worker, hworker⟩
  · exact .now hfinished
  · exact finished_of_running hfair hworker

end Liveness

omit [DecidableEq Client] in
theorem Sound.accounted (h : Sound s) : ((List.range s.accepted : List Nat) : Multiset Nat) =
    s.tasks + ∑ worker, (s.workers worker).tasks + s.finished := by
  rw [← h.order, ← Multiset.coe_add, h.executed, add_comm, add_comm (s.finished : Multiset Nat),
    ← add_assoc]

omit [DecidableEq Client] in
theorem Sound.finished_nodup (h : Sound s) : s.finished.Nodup := by
  have hle : (s.finished : Multiset Nat) ≤ (List.range s.accepted : List Nat) := by
    rw [h.accounted]
    exact Multiset.le_add_left _ _
  exact Multiset.coe_nodup.mp (Multiset.nodup_of_le hle (Multiset.coe_nodup.mpr List.nodup_range))

theorem workerCount_pos (threadCount : Nat) : 0 < workerCount threadCount := by
  unfold workerCount
  split <;> omega

omit [DecidableEq Client] in
theorem Sound.finished_of_exited (h : Sound s) (hexited : ∀ worker, s.workers worker = .exited)
    (hworkers : 0 < n) : s.finished.Perm (List.range s.accepted) := by
  have hempty : s.tasks = [] := (h.exited ⟨0, hworkers⟩ (hexited _)).2
  have hidle : ∑ worker, (s.workers worker).tasks = 0 :=
    Finset.sum_eq_zero fun worker _ => by rw [hexited]; rfl
  have hall := h.accounted
  rw [hempty, hidle, Multiset.coe_nil, zero_add, zero_add] at hall
  exact Multiset.coe_eq_coe.mp hall.symm

omit [DecidableEq Client] in
theorem Sound.not_asleep (h : Sound s) (hwaiting : ∀ worker, s.workers worker = .waiting)
    (hsome : s.tasks ≠ []) : ∃ client, s.clients client = .notifying := by
  refine (h.seen hsome).resolve_left ?_
  rintro ⟨worker, hawake⟩
  rw [hwaiting] at hawake
  cases hawake

/-- **The thread pool executes every accepted task exactly once.** In every state that any number of
threads can reach: each accepted task is in the queue, in the hands of one worker or over; nothing is
accepted once the pool refuses; `waitAll` returns only when the queue is empty and no worker has a
task in hand; `shutdown` has returned only after all accepted tasks are over; the workers do not all
wait beside a task without a notification to come, and nobody waits for a pool at rest. However it
goes on from there, if the workers are given their turns and the notifications are made, every task
accepted by then or later is executed, and only once. -/
theorem tasks_executed_once (threadCount : Nat) (events : List (Event (workerCount threadCount) Client))
    (s : Pool (workerCount threadCount) Client)
    (hrun : Run Pool.next anyStep (start threadCount Client) events s) :
    (((List.range s.accepted : List Nat) : Multiset Nat) =
        s.tasks + ∑ worker, (s.workers worker).tasks + s.finished) ∧
      (∀ x : Execution Pool.next s, Fair x → ∀ k, ∀ task < (x.states k).accepted,
        ∃ i, ∀ j ≥ i, (x.states j).finished.count task = 1) ∧
      (∀ event s', s.next event = some s' → s.accepting = false →
        s'.accepting = false ∧ s'.accepted = s.accepted) ∧
      (∀ event s' client, s.next event = some s' →
        s.clients client = .testing ∨ s.clients client = .waiting → s'.clients client = .idle →
        s'.tasks = [] ∧ ∀ worker task, s'.workers worker ≠ .running task) ∧
      (s.stopped = true → s.finished.Perm (List.range s.accepted)) ∧
      ¬((∀ worker, s.workers worker = .waiting) ∧ s.tasks ≠ [] ∧
        ∀ client, s.clients client ≠ .notifying ∧ s.clients client ≠ .stopping) ∧
      ¬∃ client, s.clients client = .waiting ∧ s.tasks = [] ∧ s.activeTasks = 0 := by
  have hworkers := workerCount_pos threadCount
  have hsound : Sound s :=
    hrun.invariant Sound (fun _ _ _ h _ hnext => h.next hworkers hnext) sound_start
  refine ⟨hsound.accounted, ?_, fun event s' hnext => (grows_next hnext).refused, ?_, ?_, ?_, ?_⟩
  · intro x hfair k task htask
    have hstep : ∀ (state : Pool (workerCount threadCount) Client) event state', Sound state →
        state.next event = some state' → Sound state' :=
      fun _ _ _ h hnext => h.next hworkers hnext
    have hall : ∀ j, Sound (x.states j) := by
      intro j
      refine Execution.stable hstep (Nat.zero_le j) ?_
      rwa [x.first]
    obtain ⟨i, -, hfinished⟩ := finished_eventually hworkers hfair (hall k) htask
    refine ⟨i, fun j hj => List.count_eq_one_of_mem (hall j).finished_nodup ?_⟩
    exact Execution.stable (P := fun s : Pool (workerCount threadCount) Client => task ∈ s.finished)
      (fun _ _ _ h hnext => (grows_next hnext).finished h) hj hfinished
  · intro event s' client hnext hcall hreturned
    obtain ⟨hempty, hrest⟩ := rest_of_returns hsound hnext hcall hreturned
    refine ⟨hempty, fun worker task hrunning => ?_⟩
    have hactive := hrest worker
    rw [hrunning] at hactive
    cases hactive
  · exact fun hstopped => hsound.finished_of_exited (hsound.stopped hstopped) hworkers
  · rintro ⟨hwaiting, hsome, hnobody⟩
    obtain ⟨client, hclient⟩ := hsound.not_asleep hwaiting hsome
    exact (hnobody client).1 hclient
  · rintro ⟨client, hclient, hempty, hnone⟩
    rcases hsound.waits client hclient with hsome | hactive
    · exact hsome hempty
    · exact hactive hnone

def onlyWorker : Fin (workerCount 0) := ⟨0, workerCount_pos 0⟩

def oneTask : List (Event (workerCount 0) Unit) :=
  [.take onlyWorker, .submit (), .notifyOne () (some onlyWorker), .take onlyWorker, .shutdown (),
    .taskEnds onlyWorker, .report onlyWorker, .notifyAll (), .take onlyWorker, .join (), .join ()]

theorem tasks_executed_once_shutdown : ∃ s, Run Pool.next anyStep (start 0 Unit) oneTask s ∧
    s.finished.Perm (List.range 1) ∧ Fair (Execution.resting Pool.next s) ∧
    ∃ i, ∀ j ≥ i, ((Execution.resting Pool.next s).states j).finished.count 0 = 1 := by
  have htest : (replay Pool.next (fun _ _ => true) (start 0 Unit) oneTask).any (fun s =>
      s.stopped && s.accepted == 1 && (∀ worker, s.workers worker = .exited) &&
        s.clients () == .idle) = true := by
    decide +kernel
  have hcheck : ∀ (s : Pool (workerCount 0) Unit) (event : Event (workerCount 0) Unit),
      true = true → anyStep s event := fun _ _ _ => trivial
  obtain ⟨s, hrun, hs⟩ := replay_reaches hcheck htest
  simp only [Bool.and_eq_true, beq_iff_eq, decide_eq_true_eq] at hs
  obtain ⟨⟨⟨hstopped, haccepted⟩, hexited⟩, hidle⟩ := hs
  have hfair : Fair (Execution.resting Pool.next s) := by
    refine ⟨fun _ worker hawake => ?_, fun _ _ hnotifying => ?_⟩
    · cases (congrArg WorkerState.awake (hexited worker)).symm.trans hawake
    · cases hidle.symm.trans hnotifying
  obtain ⟨-, hexecuted, -, -, hdone, -⟩ := tasks_executed_once 0 oneTask s hrun
  refine ⟨s, hrun, haccepted ▸ hdone hstopped, hfair, hexecuted _ hfair 0 0 ?_⟩
  exact haccepted ▸ Nat.one_pos

end ChatRoom.ThreadPool
