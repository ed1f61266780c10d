import Mathlib.Data.Fintype.Basic
import Mathlib.Data.Multiset.Basic

/-!
# The thread pool

`Threadpool/include/ThreadPool.h`. The steps of the system are the sections that hold `mutex_`, the
waits and notifications of the two condition variables, and the ends of the tasks; any thread may
take the next step. A task that has thrown is over like any other, since `workerLoop` catches
everything.
-/

namespace ChatRoom.ThreadPool

/-- Where a worker is in `workerLoop`. -/
inductive WorkerState where
  | checking
  | waiting
  | running (task : Nat)
  | reporting
  | exited
  deriving DecidableEq, Repr

/-- Where another thread is in a member function. -/
inductive ClientState where
  | idle
  /-- In `submit`, at `notify_one`. -/
  | notifying
  /-- In `waitAll`, about to lock `mutex_` and to look at the predicate. -/
  | testing
  | waiting
  /-- In `shutdown`, at `notify_all`. -/
  | stopping
  /-- In `shutdown`, with so many workers joined. -/
  | joining (count : Nat)
  deriving DecidableEq, Repr

structure Pool (n : Nat) (Client : Type) where
  accepting : Bool := true
  stopping : Bool := false
  tasks : List Nat := []
  activeTasks : Nat := 0
  workers : Fin n → WorkerState := fun _ => .checking
  clients : Client → ClientState := fun _ => .idle
  accepted : Nat := 0
  started : List Nat := []
  finished : List Nat := []
  stopped : Bool := false

inductive Event (n : Nat) (Client : Type) where
  | submit (client : Client)
  /-- `notify_one` wakes a worker if one is waiting. -/
  | notifyOne (client : Client) (woken : Option (Fin n))
  | waitAll (client : Client)
  | test (client : Client)
  | shutdown (client : Client)
  | notifyAll (client : Client)
  | join (client : Client)
  /-- `join` throws, as it does in the thread that is to be joined. -/
  | joinThrows (client : Client)
  | take (worker : Fin n)
  | taskEnds (worker : Fin n)
  | report (worker : Fin n)
  | wakeWorker (worker : Fin n)
  | wakeClient (client : Client)

namespace Pool

section Parts

variable {n : Nat} {Client : Type} (s : Pool n Client)

def wakeWorkers : Pool n Client :=
  { s with workers := fun worker =>
      if s.workers worker = .waiting then .checking else s.workers worker }

def wakeClients : Pool n Client :=
  { s with clients := fun client =>
      if s.clients client = .waiting then .testing else s.clients client }

def setWorker (worker : Fin n) (state : WorkerState) : Pool n Client :=
  { s with workers := Function.update s.workers worker state }

end Parts

variable {n : Nat} {Client : Type} [DecidableEq Client] (s : Pool n Client)

def setClient (client : Client) (state : ClientState) : Pool n Client :=
  { s with clients := Function.update s.clients client state }

def submit (client : Client) : Pool n Client :=
  if s.accepting then
    { s with tasks := s.tasks ++ [s.accepted], accepted := s.accepted + 1 }.setClient client .notifying
  else s

def notifyOne (client : Client) : Option (Fin n) → Option (Pool n Client)
  | none =>
    if ∀ worker, s.workers worker ≠ .waiting then some (s.setClient client .idle) else none
  | some worker =>
    if s.workers worker = .waiting then
      some ((s.setWorker worker .checking).setClient client .idle)
    else none

def test (client : Client) : Pool n Client :=
  if s.tasks = [] ∧ s.activeTasks = 0 then s.setClient client .idle
  else s.setClient client .waiting

def shutdown (client : Client) : Pool n Client :=
  if s.stopping then s
  else { s with accepting := false, stopping := true }.setClient client .stopping

def join (client : Client) (count : Nat) : Option (Pool n Client) :=
  if h : count < n then
    if s.workers ⟨count, h⟩ = .exited then some (s.setClient client (.joining (count + 1))) else none
  else some { s.setClient client .idle with stopped := true }

def take (worker : Fin n) : Pool n Client :=
  match s.tasks with
  | [] => if s.stopping then s.setWorker worker .exited else s.setWorker worker .waiting
  | task :: tasks =>
    { s.setWorker worker (.running task) with
      tasks
      activeTasks := s.activeTasks + 1
      started := s.started ++ [task] }

def report (worker : Fin n) : Pool n Client :=
  let s := { s.setWorker worker .checking with activeTasks := s.activeTasks - 1 }
  if s.tasks = [] ∧ s.activeTasks = 0 then s.wakeClients else s

def next : Event n Client → Option (Pool n Client)
  | .submit client => if s.clients client = .idle then some (s.submit client) else none
  | .notifyOne client woken =>
    if s.clients client = .notifying then s.notifyOne client woken else none
  | .waitAll client =>
    if s.clients client = .idle then some (s.setClient client .testing) else none
  | .test client => if s.clients client = .testing then some (s.test client) else none
  | .shutdown client => if s.clients client = .idle then some (s.shutdown client) else none
  | .notifyAll client =>
    if s.clients client = .stopping then some (s.wakeWorkers.setClient client (.joining 0)) else none
  | .join client =>
    match s.clients client with
    | .joining count => s.join client count
    | _ => none
  | .joinThrows client =>
    match s.clients client with
    | .joining _ => some (s.setClient client .idle)
    | _ => none
  | .take worker => if s.workers worker = .checking then some (s.take worker) else none
  | .taskEnds worker =>
    match s.workers worker with
    | .running task =>
      some { s.setWorker worker .reporting with finished := s.finished ++ [task] }
    | _ => none
  | .report worker => if s.workers worker = .reporting then some (s.report worker) else none
  | .wakeWorker worker =>
    if s.workers worker = .waiting then some (s.setWorker worker .checking) else none
  | .wakeClient client =>
    if s.clients client = .waiting then some (s.setClient client .testing) else none

end Pool

/-- The constructor starts one worker if it is asked for none. -/
def workerCount (threadCount : Nat) : Nat := if threadCount = 0 then 1 else threadCount

def start (threadCount : Nat) (Client : Type) : Pool (workerCount threadCount) Client := {}

def Event.worker {n : Nat} {Client : Type} : Event n Client → Option (Fin n)
  | .take worker | .taskEnds worker | .report worker => some worker
  | _ => none

/-! ### What the workers have in hand -/

namespace WorkerState

def tasks : WorkerState → Multiset Nat
  | .running task => {task}
  | _ => 0

def active : WorkerState → Nat
  | .running _ | .reporting => 1
  | _ => 0

def awake : WorkerState → Bool
  | .checking | .running _ | .reporting => true
  | _ => false

end WorkerState

end ChatRoom.ThreadPool
