import ChatRoom.Proof.OutputFrame

/-!
# Closing the write side

`shutdown` lets a connection finish its output before the write side of the socket is shut down.
-/

namespace ChatRoom.Net

open OutputLedger Transition

variable {Callback Owner Outcome Task : Type}

structure Closer (Callback Owner : Type) where
  machine : Machine Callback Owner
  writeClosed : Bool := false

namespace Closer

variable (w : Closer Callback Owner)

def callsShutdownInLoop (input : Input Callback Outcome Task)
    (m : Machine Callback Owner) : Bool :=
  let c := w.machine.conn
  match w.machine.stack.head?, input with
  | none, .call .shutdown => c.connected
  | none, .functor =>
    match c.functors with
    | .shutdownInLoop :: _ => true
    | _ => false
  | some (.user (.shutdown :: _)), .run => c.connected
  | some .handlePlainWrite, .wrote _ =>
    m.conn.outputBuffer.isEmpty && decide (m.conn.state = .disconnecting)
  | some .flushTlsOutput, .run =>
    c.tls && c.tlsHandshakeComplete && decide (c.state = .disconnecting)
  | _, _ => false

/-- `shutdownInLoop` returns while there is output in the buffer or a write event to come. -/
def shutdownInLoop (m : Machine Callback Owner) : Bool :=
  !m.conn.writing && m.conn.outputBuffer.isEmpty

def after (input : Input Callback Outcome Task) (m : Machine Callback Owner) :
    Closer Callback Owner :=
  { machine := m
    writeClosed := w.writeClosed || w.callsShutdownInLoop input m && shutdownInLoop m }

def next (files : Bytes → Bytes) (user : User Callback Owner Outcome Task)
    (input : Input Callback Outcome Task) : Option (Closer Callback Owner) :=
  (w.machine.next files user input).map (w.after input)

def fresh (tls ktls : Bool) (owner : Owner) : Closer Callback Owner :=
  { machine := .fresh tls ktls owner }

end Closer

/-- Every accepted text and frame has been handed to the socket, and none is queued in the loop. -/
structure Emptied (files : Bytes → Bytes) (m : Machine Callback Owner) : Prop where
  handed : ∀ unit ∈ m.conn.accepted, Handed (Output.bytes files) (m.ledger files) unit
  queued : ∀ functor ∈ m.conn.functors, functor.request = none

/-- The connection is to be closed and has nothing to send, and nothing will close it. -/
structure Stranded (files : Bytes → Bytes) (w : Closer Callback Owner) : Prop where
  emptied : Emptied files w.machine
  state : w.machine.conn.state = .disconnecting
  idle : w.machine.stack = []
  functors : w.machine.conn.functors = []
  writing : w.machine.conn.writing = false
  opened : w.writeClosed = false

structure Spent (c : TcpConnection Callback) (stack : List (Code Callback)) : Prop where
  active : c.activeFileSend = none
  queued : c.queuedFileFrames = []
  deferred : c.deferredSends = []
  requests : ∀ functor ∈ c.functors, functor.request = none
  stack : ∀ code ∈ stack, code.waits = none ∧ code.opening = none ∧ code ≠ .settleWriting
  handshake : c.tls = true → c.tlsHandshakeComplete = true

/-- Nothing fails, and the connection is not closed by force. -/
structure Regular (files : Bytes → Bytes) (user : User Callback Owner Outcome Task)
    (m : Machine Callback Owner) (input : Input Callback Outcome Task) : Prop where
  undisturbed : Undisturbed files m input
  unforced : ∀ m', m.next files user input = some m' → .forceCloseInLoop ∉ m'.conn.functors

def ShutsSpent (files : Bytes → Bytes) (user : User Callback Owner Outcome Task)
    (m : Machine Callback Owner) (input : Input Callback Outcome Task) : Prop :=
  ∀ m', m.next files user input = some m' → m.conn.state = .connected →
    m'.conn.state = .disconnecting → Spent m'.conn m'.stack

/-! ### Calls from other threads -/

structure Queues (c c' : TcpConnection Callback) : Prop where
  kept : ∀ functor ∈ c.functors, functor ∈ c'.functors
  shuts : c'.state = .disconnecting → c.state = .disconnecting ∨ .forceCloseInLoop ∈ c'.functors ∨
    c.state = .connected ∧ .shutdownInLoop ∈ c'.functors
  shutdown : .shutdownInLoop ∈ c'.functors → .shutdownInLoop ∈ c.functors ∨
    c'.state = .disconnecting
  up : c'.state = .connected → c.state = .connected
  down : c.state = .disconnecting → c'.state = .disconnecting
  refused : c.state = .disconnecting ∨ c.state = .disconnected →
    c' = c ∨ .forceCloseInLoop ∈ c'.functors

theorem Queues.refl (c : TcpConnection Callback) : Queues c c :=
  ⟨fun _ => id, .inl, .inl, id, id, fun _ => .inl rfl⟩

theorem queues_post (c : TcpConnection Callback) (call : Call Callback) :
    Queues c (c.post call) := by
  have hposts := post_posted (c := c) call
  generalize c.post call = d at hposts
  cases hposts with
  | ignored => exact .refl c
  | @queued _ functor hup _ hfunctor =>
    refine ⟨by simp +contextual, .inl, fun hin => .inl ?_, id, id, by simp [hup]⟩
    rcases List.mem_append.mp hin with hin | hin
    · exact hin
    · rw [← List.mem_singleton.mp hin] at hfunctor
      cases hfunctor
  | shutdown hup =>
    exact ⟨by simp +contextual, fun _ => .inr (.inr ⟨hup, by simp⟩), fun _ => .inr rfl,
      fun _ => hup, fun _ => rfl, by simp [hup]⟩
  | forced =>
    exact ⟨by simp +contextual, fun _ => .inr (.inl (by simp)), fun _ => .inr rfl, nofun,
      fun _ => rfl, fun _ => .inr (by simp)⟩

theorem Queues.trans {c c' c'' : TcpConnection Callback} (hfirst : Queues c c')
    (hsecond : Queues c' c'') : Queues c c'' where
  kept := fun functor hin => hsecond.kept functor (hfirst.kept functor hin)
  shuts := by
    intro hdown
    rcases hsecond.shuts hdown with hdown | hforce | ⟨hup, hshutdown⟩
    · rcases hfirst.shuts hdown with hdown | hforce | ⟨hup, hshutdown⟩
      · exact .inl hdown
      · exact .inr (.inl (hsecond.kept _ hforce))
      · exact .inr (.inr ⟨hup, hsecond.kept _ hshutdown⟩)
    · exact .inr (.inl hforce)
    · exact .inr (.inr ⟨hfirst.up hup, hshutdown⟩)
  shutdown := by
    intro hin
    rcases hsecond.shutdown hin with hin | hdown
    · exact (hfirst.shutdown hin).imp_right hsecond.down
    · exact .inr hdown
  up := fun hup => hfirst.up (hsecond.up hup)
  down := fun hdown => hsecond.down (hfirst.down hdown)
  refused := by
    intro hclosed
    rcases hfirst.refused hclosed with rfl | hforce
    · exact hsecond.refused hclosed
    · exact .inr (hsecond.kept _ hforce)

theorem queues_postAll (calls : List (Call Callback)) (c : TcpConnection Callback) :
    Queues c (calls.foldl TcpConnection.post c) := by
  induction calls generalizing c with
  | nil => exact .refl c
  | cons call calls ih => exact (queues_post c call).trans (ih (c.post call))

/-! ### A connection that is closing -/

section Spent

variable {files : Bytes → Bytes} {c c' : TcpConnection Callback} {code : Code Callback}
  {rest more : List (Code Callback)} {input : Input Callback Outcome Task}

theorem Called.refused {call : Call Callback} (h : Called c call c' more)
    (hdown : c.state = .disconnecting ∨ c.state = .disconnected)
    (hunforced : .forceCloseInLoop ∉ c'.functors) : c' = c ∧ more = [] := by
  cases h with
  | ignored => exact ⟨rfl, rfl⟩
  | accepts hup | shutdown hup => simp [hup] at hdown
  | forced => simp at hunforced

theorem Spent.queues (h : Spent c (code :: rest))
    (hdown : c.state = .disconnecting ∨ c.state = .disconnected)
    (hexec : exec files c code input = some (c', more))
    (hunforced : .forceCloseInLoop ∉ c'.functors) : QueuesKept c c' more := by
  obtain ⟨hwaits, hopening, -⟩ := h.stack code List.mem_cons_self
  by_cases hmoves : code.moves = false
  · exact (exec_quiet hmoves hexec).1
  have hactive := h.active
  cases exec_does hexec with
  | leads hleads =>
    refine ⟨rfl, rfl, rfl, rfl, rfl, rfl, rfl, ?_⟩
    cases hleads with
    | opened => cases hwaits
    | resumes => exact absurd rfl hmoves
    | _ => rfl
  | sets hsets => exact hsets.kept.1
  | text | header | drops | openFails => cases hwaits
  | activates => cases hopening
  | fileBytes _ _ hfile | finishes _ hfile => simp [hactive] at hfile
  | drains _ _ _ hdeferred => simp [h.deferred] at hdeferred
  | starts _ _ _ hqueued => simp [h.queued] at hqueued
  | calls call calls =>
    have hcalled := call_called (c := c) call
    obtain ⟨hsame, hmore⟩ := hcalled.refused hdown hunforced
    rw [hsame, hmore]
    exact ⟨rfl, rfl, rfl, rfl, rfl, rfl, rfl, rfl⟩
  | _ => exact absurd rfl hmoves

theorem Spent.after (h : Spent c rest) {code : Option (Code Callback)}
    (hcode : ∀ frame, code ≠ some (.sendHeader frame)) (hframe : Frame c code c' more)
    (hkept : QueuesKept c c' more) : Spent c' (more ++ rest) where
  active := hkept.active.trans h.active
  queued := hkept.queued.trans h.queued
  deferred := hkept.deferred.trans h.deferred
  requests := fun functor hin => (hframe.added functor hin).elim (h.requests functor) And.left
  stack := by
    intro other hin
    rcases List.mem_append.mp hin with hin | hin
    · refine ⟨List.filterMap_eq_nil_iff.mp hkept.waits other hin, hframe.opens hcode other hin, ?_⟩
      rintro rfl
      exact hframe.settles hin h.active
    · exact h.stack other hin
  handshake := fun htls => hframe.handshake (h.handshake (hframe.tls.symm.trans htls))

theorem Spent.below (h : Spent c (code :: rest)) : Spent c rest :=
  { h with stack := fun other hin => h.stack other (List.mem_cons_of_mem _ hin) }

theorem spent_exec (h : Spent c (code :: rest))
    (hdown : c.state = .disconnecting ∨ c.state = .disconnected)
    (hexec : exec files c code input = some (c', more))
    (hunforced : .forceCloseInLoop ∉ c'.functors) : Spent c' (more ++ rest) := by
  refine h.below.after ?_ (exec_frame hexec) (h.queues hdown hexec hunforced)
  rintro frame ⟨⟩
  cases (h.stack _ List.mem_cons_self).1

theorem Spent.empty (h : Spent c (code :: rest))
    (hexec : exec files c code input = some (c', more)) (hempty : c.outputBuffer = []) :
    c'.outputBuffer = [] := by
  have hwaits := (h.stack code List.mem_cons_self).1
  by_cases hbuffers : code.buffers = false
  · exact ((exec_frame hexec).buffer hbuffers).trans hempty
  cases exec_does hexec with
  | leads => exact hempty
  | sets hsets => cases hsets <;> exact hempty
  | text | header => cases hwaits
  | flushed => exact hempty
  | flushes _ _ htakes | writes _ _ htakes | writesAll _ _ htakes =>
    obtain ⟨⟨hpos, hcount⟩, -⟩ := takes_iff.mp htakes
    rw [hempty, List.length_nil] at hcount
    omega
  | _ => exact absurd rfl hbuffers

end Spent

def Due (c : TcpConnection Callback) (stack : List (Code Callback)) : Prop :=
  c.outputBuffer ≠ [] ∨ c.writing = true ∨ .shutdownInLoop ∈ c.functors ∨
    .flushTlsOutput ∈ stack ∧ c.tls = true

structure Unshut (w : Closer Callback Owner) : Prop where
  state : w.machine.conn.state ≠ .disconnecting
  functors : .shutdownInLoop ∉ w.machine.conn.functors
  opened : w.writeClosed = false

structure Closing (w : Closer Callback Owner) : Prop where
  spent : Spent w.machine.conn w.machine.stack
  down : w.machine.conn.state = .disconnecting ∨ w.machine.conn.state = .disconnected
  flushed : w.writeClosed = true → w.machine.conn.outputBuffer = []
  due : w.machine.conn.state = .disconnecting → w.writeClosed = false →
    Due w.machine.conn w.machine.stack

section Closing

variable {files : Bytes → Bytes} {user : User Callback Owner Outcome Task}
  {w : Closer Callback Owner} {m : Machine Callback Owner} {input : Input Callback Outcome Task}
  {code : Code Callback} {rest more : List (Code Callback)} {c c' : TcpConnection Callback}

theorem due_of_not_shut (h : Closer.shutdownInLoop m = false) : Due m.conn m.stack := by
  unfold Closer.shutdownInLoop at h
  rcases Bool.and_eq_false_iff.mp h with hwriting | hempty
  · exact .inr (.inl (by simpa using hwriting))
  · exact .inl (by simpa using hempty)

theorem empty_of_shut (h : Closer.shutdownInLoop m = true) : m.conn.outputBuffer = [] := by
  unfold Closer.shutdownInLoop at h
  exact List.isEmpty_iff.mp (Bool.and_eq_true_iff.mp h).2

theorem Closing.begin (hspent : Spent m.conn m.stack) (hdown : m.conn.state = .disconnecting)
    (hopened : w.writeClosed = false)
    (hdue : (w.callsShutdownInLoop input m = true → Closer.shutdownInLoop m = false) →
      Due m.conn m.stack) :
    Closing (w.after input m) := by
  refine ⟨hspent, .inl hdown, fun hclosed => ?_, fun _ hclosed => hdue fun hcalls => ?_⟩
  · unfold Closer.after at hclosed
    rw [hopened, Bool.false_or] at hclosed
    exact empty_of_shut (Bool.and_eq_true_iff.mp hclosed).2
  · unfold Closer.after at hclosed
    rwa [hopened, Bool.false_or, hcalls, Bool.true_and] at hclosed

theorem Closing.step (h : Closing w) (hspent : Spent m.conn m.stack)
    (hdown : m.conn.state = .disconnecting ∨ m.conn.state = .disconnected)
    (hstays : m.conn.state = .disconnecting → w.machine.conn.state = .disconnecting)
    (hempty : w.machine.conn.outputBuffer = [] → m.conn.outputBuffer = [])
    (hdue : m.conn.state = .disconnecting → Due w.machine.conn w.machine.stack →
      (w.callsShutdownInLoop input m = true → Closer.shutdownInLoop m = false) →
      Due m.conn m.stack) :
    Closing (w.after input m) := by
  refine ⟨hspent, hdown, fun hclosed => ?_, fun hstate hclosed => ?_⟩
  · rcases Bool.or_eq_true_iff.mp hclosed with hclosed | hclosed
    · exact hempty (h.flushed hclosed)
    · exact empty_of_shut (Bool.and_eq_true_iff.mp hclosed).2
  · obtain ⟨hopened, hcalls⟩ := Bool.or_eq_false_iff.mp hclosed
    refine hdue hstate (h.due (hstays hstate) hopened) fun hcall => ?_
    rwa [hcall, Bool.true_and] at hcalls

theorem due_flush (hspent : Spent w.machine.conn (.flushTlsOutput :: rest))
    (hstack : w.machine.stack = .flushTlsOutput :: rest)
    (hwrites : input ≠ .failed) (hexec : w.machine.conn.flushTlsOutput input = some (c, more))
    (hstate : w.machine.conn.state = .disconnecting)
    (hdue : Due w.machine.conn w.machine.stack)
    (hcalls : w.callsShutdownInLoop input { w.machine with conn := c, stack := more ++ rest } =
      true → Closer.shutdownInLoop { w.machine with conn := c, stack := more ++ rest } = false) :
    Due c (more ++ rest) := by
  by_cases hplain : w.machine.conn.tls = false
  · unfold TcpConnection.flushTlsOutput at hexec
    rw [if_pos (.inl hplain)] at hexec
    obtain ⟨rfl, rfl⟩ := proceed_pair hexec
    rcases hdue with hbuffer | hwriting | hfunctor | ⟨-, htls⟩
    · exact .inl hbuffer
    · exact .inr (.inl hwriting)
    · exact .inr (.inr (.inl hfunctor))
    · exact absurd (hplain.symm.trans htls) nofun
  rw [Bool.not_eq_false] at hplain
  have hhandshake := hspent.handshake hplain
  have hdoes : Does (fun _ => []) w.machine.conn .flushTlsOutput input c more :=
    flushTlsOutput_does hexec
  cases hdoes with
  | leads hleads =>
    cases hleads with
    | flushAgain _ hrest => exact .inl hrest
    | idles hidles =>
      cases input <;> simp [Code.Idles, hplain, hhandshake, hstate] at hidles
    | fails hfails =>
      cases input <;> first
        | exact hfails.elim
        | exact absurd rfl hwrites
    | callback hcode => simp at hcode
  | sets hsets =>
    cases hsets with
    | flushBlocked => exact .inr (.inl rfl)
    | flushReads _ hrest => exact .inl hrest
  | flushed =>
    -- the buffer is empty, and `shutdownInLoop` is called
    refine due_of_not_shut (hcalls ?_)
    simp [Closer.callsShutdownInLoop, hstack, hplain, hhandshake, hstate]
  | flushes => exact .inr (.inr (.inr ⟨by simp, hplain⟩))

theorem due_plain (hstack : w.machine.stack = .handlePlainWrite :: rest)
    (hexec : w.machine.conn.handlePlainWrite input = some (c, more))
    (hstate : c.state = .disconnecting) (hdue : Due w.machine.conn w.machine.stack)
    (hcalls : w.callsShutdownInLoop input { w.machine with conn := c, stack := more ++ rest } =
      true → Closer.shutdownInLoop { w.machine with conn := c, stack := more ++ rest } = false) :
    Due c (more ++ rest) := by
  have hsame : ∀ more : List (Code Callback), Due w.machine.conn (more ++ rest) := by
    intro more
    rw [hstack] at hdue
    refine hdue.imp_right (Or.imp_right (Or.imp_right (And.imp_left fun hin => ?_)))
    exact List.mem_append_right _ ((List.mem_cons.mp hin).resolve_left nofun)
  have hdoes : Does (fun _ => []) w.machine.conn .handlePlainWrite input c more :=
    handlePlainWrite_does hexec
  cases hdoes with
  | leads => exact hsame _
  | sets hsets => cases hsets
  | writes _ _ _ hrest => exact .inl hrest
  | writesAll count _ _ hempty =>
    refine due_of_not_shut (hcalls ?_)
    have hflushed : ({ w.machine.conn.emit count with
        writing := false }.finishOutputCompletions).outputBuffer = [] := hempty
    simp [Closer.callsShutdownInLoop, hstack, hflushed, hstate]

theorem Closing.exec (h : Closing w) (hstack : w.machine.stack = code :: rest)
    (hexec : exec files w.machine.conn code input = some (c, more))
    (hunforced : .forceCloseInLoop ∉ c.functors)
    (hwrites : input = .failed → code ≠ .flushTlsOutput) :
    Closing (w.after input { w.machine with conn := c, stack := more ++ rest }) := by
  have hspent : Spent w.machine.conn (code :: rest) := hstack ▸ h.spent
  have hframe : Frame w.machine.conn (some code) c more := exec_frame hexec
  have hstays : c.state = .disconnecting → w.machine.conn.state = .disconnecting := by
    intro hdown
    rcases hframe.shuts hdown with hdown | hforce | ⟨-, hup⟩
    · exact hdown
    · exact absurd hforce hunforced
    · rcases h.down with hdown | hdown <;> cases hup.symm.trans hdown
  refine h.step (spent_exec hspent h.down hexec hunforced) (hframe.down h.down) hstays
    (hspent.empty hexec) fun hstate hdue hcalls => ?_
  -- what is due stays so, unless this code empties the buffer or ends the interest in writing
  have hkept : code.buffers = false → (w.machine.conn.writing = true → c.writing = true) →
      Due c (more ++ rest) := by
    intro hbuffers hwriting
    rw [hstack] at hdue
    rcases hdue with hbuffer | hwrites | hfunctor | ⟨hin, htls⟩
    · exact .inl (by rwa [hframe.buffer hbuffers])
    · exact .inr (.inl (hwriting hwrites))
    · exact .inr (.inr (.inl (hframe.kept _ hfunctor)))
    · refine .inr (.inr (.inr ⟨List.mem_append_right _ ?_, hframe.tls.trans htls⟩))
      refine (List.mem_cons.mp hin).resolve_left ?_
      rintro rfl
      cases hbuffers
  by_cases hbuffers : code.buffers = false
  · by_cases hstops : code.stopsWriting = false
    · exact hkept hbuffers (hframe.writing hbuffers hstops)
    cases code with
    | settleWriting => exact absurd rfl (hspent.stack _ List.mem_cons_self).2.2
    | driveTlsHandshake =>
      refine hkept rfl ?_
      simp only [Net.exec, TcpConnection.driveTlsHandshake] at hexec
      split at hexec
      · obtain ⟨rfl, -⟩ := proceed_pair hexec
        exact id
      · rename_i hguard
        rw [not_or, not_or, Bool.not_eq_false] at hguard
        exact absurd (hspent.handshake hguard.1) hguard.2.1
    | handleClose =>
      obtain ⟨rfl, -⟩ := proceed_pair hexec
      unfold TcpConnection.handleClose at hstate
      split at hstate
      · rename_i hclosed
        cases hclosed.symm.trans hstate
      · cases hstate
    | _ => exact absurd rfl hstops
  cases code with
  | sendInLoop | sendHeader => cases (hspent.stack _ List.mem_cons_self).1
  | flushTlsOutput =>
    exact due_flush hspent hstack (fun hfailed => hwrites hfailed rfl) hexec (hstays hstate) hdue
      hcalls
  | handlePlainWrite => exact due_plain hstack hexec hstate hdue hcalls
  | _ => exact absurd rfl hbuffers

theorem Closing.wake (h : Closing w) (hidle : w.machine.stack = [])
    (hwake : wake w.machine.conn input = some (c, more))
    (hforce : .forceCloseInLoop ∉ w.machine.conn.functors)
    (hunforced : .forceCloseInLoop ∉ c.functors) :
    Closing (w.after input { w.machine with conn := c, stack := more }) := by
  have hspent : Spent w.machine.conn [] := hidle ▸ h.spent
  cases wake_wakes hwake with
  | call call hcalled =>
    obtain ⟨rfl, rfl⟩ := hcalled.refused h.down hunforced
    refine h.step hspent h.down id id fun hstate hdue _ => ?_
    rw [hidle] at hdue
    exact hdue
  | functor functor functors hfunctors hran =>
    have hrequest : functor.request = none := hspent.requests functor (by simp [hfunctors])
    have hrest : ∀ other ∈ functors, other ∈ w.machine.conn.functors := by
      intro other hin
      rw [hfunctors]
      exact List.mem_cons_of_mem _ hin
    have hspent' : Spent { w.machine.conn with functors } [] :=
      { hspent with requests := fun other hin => hspent.requests other (hrest other hin) }
    -- what is due stays so without the functor
    have hkept : functor ≠ .shutdownInLoop → ∀ {more : List (Code Callback)},
        Due w.machine.conn w.machine.stack → Due { w.machine.conn with functors } more := by
      intro hother more hdue
      rw [hidle] at hdue
      rcases hdue with hbuffer | hwriting | hin | ⟨hin, -⟩
      · exact .inl hbuffer
      · exact .inr (.inl hwriting)
      · rw [hfunctors] at hin
        exact .inr (.inr (.inl ((List.mem_cons.mp hin).resolve_left hother.symm)))
      · cases hin
    cases hran with
    | accepts _ houtput => simp [houtput] at hrequest
    | closes => exact absurd (by simp [hfunctors]) hforce
    | completion unit =>
      refine h.step ?_ h.down id id fun hstate hdue hcalls => hkept nofun hdue
      exact { hspent' with stack := by simp [Code.waits, Code.opening] }
    | ignored =>
      refine h.step hspent' h.down id id fun hstate hdue hcalls => ?_
      by_cases hshutdown : functor = .shutdownInLoop
      · refine due_of_not_shut (hcalls ?_)
        simp [Closer.callsShutdownInLoop, hidle, hfunctors, hshutdown]
      · exact hkept hshutdown hdue
  | event harises =>
    obtain ⟨hkept, -⟩ := harises.kept
    have hframe := harises.frame
    have hstays : c.state = .disconnecting → w.machine.conn.state = .disconnecting := by
      intro hdown
      rcases hframe.shuts hdown with hdown | hforce | ⟨hasks, -⟩
      · exact hdown
      · exact absurd hforce hunforced
      · cases hasks
    refine h.step ?_ (hframe.down h.down) hstays (hframe.buffer rfl).trans fun hstate hdue _ => ?_
    · simpa using hspent.after (by simp) hframe hkept
    · rw [hidle] at hdue
      rcases hdue with hbuffer | hwriting | hin | ⟨hin, -⟩
      · exact .inl (by rwa [hframe.buffer rfl])
      · exact .inr (.inl (hframe.writing rfl rfl hwriting))
      · exact .inr (.inr (.inl (hframe.kept _ hin)))
      · cases hin

theorem Closing.post (h : Closing w) (hqueues : Queues w.machine.conn c) (owner : Owner)
    (hunforced : .forceCloseInLoop ∉ c.functors) :
    Closing (w.after input { w.machine with conn := c, owner }) := by
  obtain rfl := (hqueues.refused h.down).resolve_right hunforced
  exact h.step h.spent h.down id id fun _ hdue _ => hdue

theorem Closing.complete {unit : Numbered (Output Callback)} (h : Closing w)
    (hstack : w.machine.stack = .completion unit :: rest)
    (hmore : more = [] ∨ ∃ calls, more = [.user calls]) (hconn : m.conn = w.machine.conn)
    (hstack' : m.stack = more ++ rest) : Closing (w.after input m) := by
  have hspent : Spent w.machine.conn (.completion unit :: rest) := hstack ▸ h.spent
  refine h.step ?_ ?_ ?_ ?_ fun _ hdue _ => ?_
  · rw [hconn, hstack']
    refine { hspent.below with stack := fun other hin => ?_ }
    rcases List.mem_append.mp hin with hin | hin
    · rcases hmore with rfl | ⟨calls, rfl⟩
      · cases hin
      · obtain rfl := List.mem_singleton.mp hin
        exact ⟨rfl, rfl, nofun⟩
    · exact hspent.below.stack other hin
  · rw [hconn]
    exact h.down
  · rw [hconn]
    exact id
  · rw [hconn]
    exact id
  · rw [hstack] at hdue
    rw [hconn, hstack']
    refine hdue.imp_right (Or.imp_right (Or.imp_right (And.imp_left fun hin => ?_)))
    exact List.mem_append_right _ ((List.mem_cons.mp hin).resolve_left nofun)

theorem Closing.next (h : Closing w) (hnext : w.machine.next files user input = some m)
    (hforce : .forceCloseInLoop ∉ w.machine.conn.functors)
    (hunforced : .forceCloseInLoop ∉ m.conn.functors)
    (hundisturbed : Undisturbed files w.machine input) : Closing (w.after input m) := by
  cases Machine.next_cases hnext with
  | post call => exact h.post (queues_post _ call) _ hunforced
  | background task => exact h.post (queues_postAll _ _) _ hunforced
  | wake _ c more hidle hwake => exact h.wake hidle hwake hforce hunforced
  | complete _ unit rest _ hstack hcomplete =>
    obtain ⟨more, hmore, hconn, hstack'⟩ := Machine.complete_cases hcomplete
    exact h.complete hstack hmore hconn hstack'
  | exec _ code rest more c hstack hexec =>
    refine h.exec hstack hexec hunforced fun hfailed => ?_
    rintro rfl
    exact (hundisturbed.writes hfailed).1 (by rw [hstack]; rfl)

/-! ### A connection that is not closing -/

theorem calls_of_next (hnext : w.machine.next files user input = some m)
    (hcalls : w.callsShutdownInLoop input m = true) :
    m.conn.state = .disconnecting ∨ w.machine.conn.state = .disconnecting ∨
      .shutdownInLoop ∈ w.machine.conn.functors := by
  have hshut : w.machine.conn.connected = true →
      (w.machine.conn.call .shutdown).1.state = .disconnecting := by
    intro hup
    simp [TcpConnection.call, hup]
  unfold Closer.callsShutdownInLoop at hcalls
  dsimp only at hcalls
  split at hcalls
  · rename_i hhead
    have hidle : w.machine.stack = [] := by simpa using hhead
    simp only [Machine.next, hidle, Net.wake, Option.map_some] at hnext
    cases hnext
    exact .inl (hshut hcalls)
  · split at hcalls
    · rename_i hfunctors
      exact .inr (.inr (by simp [hfunctors]))
    · cases hcalls
  · rename_i calls hhead
    obtain ⟨rest, hstack⟩ : ∃ rest, w.machine.stack = .user (.shutdown :: calls) :: rest := by
      cases hstack : w.machine.stack with
      | nil =>
        rw [hstack] at hhead
        cases hhead
      | cons code rest =>
        rw [hstack] at hhead
        cases hhead
        exact ⟨rest, rfl⟩
    simp only [Machine.next, hstack, Net.exec, Input.proceed, Option.map_some] at hnext
    cases hnext
    exact .inl (hshut hcalls)
  · exact .inl (of_decide_eq_true (Bool.and_eq_true_iff.mp hcalls).2)
  · exact .inr (.inl (of_decide_eq_true (Bool.and_eq_true_iff.mp hcalls).2))
  · cases hcalls

theorem Unshut.stays (h : Unshut w) (hnext : w.machine.next files user input = some m)
    (hstate : m.conn.state ≠ .disconnecting)
    (hfunctors : .shutdownInLoop ∈ m.conn.functors →
      .shutdownInLoop ∈ w.machine.conn.functors) :
    Unshut (w.after input m) := by
  have hcalls : w.callsShutdownInLoop input m = false := by
    by_contra hcalls
    rw [Bool.not_eq_false] at hcalls
    rcases calls_of_next hnext hcalls with hdown | hdown | hin
    · exact hstate hdown
    · exact h.state hdown
    · exact h.functors hin
  exact ⟨hstate, fun hin => h.functors (hfunctors hin), by simp [Closer.after, h.opened, hcalls]⟩

theorem Unshut.next (h : Unshut w) (hnext : w.machine.next files user input = some m)
    (hunforced : .forceCloseInLoop ∉ m.conn.functors) (hspent : ShutsSpent files user w.machine input) :
    Unshut (w.after input m) ∨ Closing (w.after input m) := by
  have hbegin : w.machine.conn.state = .connected → m.conn.state = .disconnecting →
      .shutdownInLoop ∈ m.conn.functors ∨ w.callsShutdownInLoop input m = true →
      Closing (w.after input m) := by
    intro hup hdown hshuts
    refine .begin (hspent m hnext hup hdown) hdown h.opened fun hcalls => ?_
    rcases hshuts with hin | hcall
    · exact .inr (.inr (.inl hin))
    · exact due_of_not_shut (hcalls hcall)
  -- a step of the loop's thread
  have hframed : ∀ {code : Option (Code Callback)} {d : TcpConnection Callback}
      {more : List (Code Callback)}, Frame d code m.conn more → d.state = w.machine.conn.state →
      (∀ functor ∈ d.functors, functor ∈ w.machine.conn.functors) →
      (code.any Code.asksShutdown = true → w.machine.conn.state = .connected →
        w.callsShutdownInLoop input m = true) →
      Unshut (w.after input m) ∨ Closing (w.after input m) := by
    intro code d more hframe hstate hfunctors hcalls
    by_cases hdown : m.conn.state = .disconnecting
    · rcases hframe.shuts hdown with hdown' | hforce | ⟨hasks, hup⟩
      · exact absurd (hstate.symm.trans hdown') h.state
      · exact absurd hforce hunforced
      · have hup' := hstate.symm.trans hup
        exact .inr (hbegin hup' hdown (.inr (hcalls hasks hup')))
    · refine .inl (h.stays hnext hdown fun hin => ?_)
      rcases hframe.added _ hin with hin | ⟨-, hother⟩
      · exact hfunctors _ hin
      · exact absurd rfl hother
  -- a step of another thread
  have hposted : Queues w.machine.conn m.conn →
      Unshut (w.after input m) ∨ Closing (w.after input m) := by
    intro hqueues
    by_cases hdown : m.conn.state = .disconnecting
    · rcases hqueues.shuts hdown with hdown' | hforce | ⟨hup, hin⟩
      · exact absurd hdown' h.state
      · exact absurd hforce hunforced
      · exact .inr (hbegin hup hdown (.inl hin))
    · exact .inl (h.stays hnext hdown fun hin => (hqueues.shutdown hin).resolve_right hdown)
  cases Machine.next_cases hnext with
  | post call => exact hposted (queues_post _ call)
  | background task => exact hposted (queues_postAll _ _)
  | wake _ c more hidle hwake =>
    cases wake_wakes hwake with
    | call call hcalled =>
      refine hframed (hcalled.frame []) rfl (fun _ => id) fun hasks hup => ?_
      cases call with
      | shutdown => simp [Closer.callsShutdownInLoop, hidle, TcpConnection.connected, hup]
      | _ => cases hasks
    | functor functor functors hfunctors hran =>
      refine hframed hran.frame rfl (fun other hin => ?_) (by simp)
      rw [hfunctors]
      exact List.mem_cons_of_mem _ hin
    | event harises => exact hframed harises.frame rfl (fun _ => id) (by simp)
  | complete _ unit rest _ hstack hcomplete =>
    obtain ⟨more, -, hconn, -⟩ := Machine.complete_cases hcomplete
    refine .inl (h.stays hnext ?_ ?_)
    · rw [hconn]
      exact h.state
    · rw [hconn]
      exact id
  | exec _ code rest more c hstack hexec =>
    refine hframed (exec_frame hexec) rfl (fun _ => id) fun hasks hup => ?_
    cases code with
    | user calls =>
      cases calls with
      | nil => cases hasks
      | cons call calls =>
        cases call with
        | shutdown =>
          obtain ⟨rfl, -⟩ := proceed_eq_some hexec
          simp [Closer.callsShutdownInLoop, hstack, TcpConnection.connected, hup]
        | _ => cases hasks
    | _ => cases hasks

end Closing

/-! ### The result -/

structure WellClosed (files : Bytes → Bytes) (w : Closer Callback Owner) : Prop where
  ordered : Machine.Ordered files (fun _ => True) w.machine
  intact : Intact files w.machine.conn w.machine.stack
  unforced : .forceCloseInLoop ∉ w.machine.conn.functors
  phase : Unshut w ∨ Closing w

section Result

variable {files : Bytes → Bytes} {user : User Callback Owner Outcome Task}
  {w w' : Closer Callback Owner} {m : Machine Callback Owner} {input : Input Callback Outcome Task}

theorem wellClosed_fresh (tls ktls : Bool) (owner : Owner) :
    WellClosed files (.fresh tls ktls owner : Closer Callback Owner) where
  ordered := Machine.ordered_start files _ tls ktls owner
  intact := ⟨rfl, rfl, by simp [Closer.fresh, Machine.fresh], .nil, nofun,
    by simp [Closer.fresh, Machine.fresh], nofun⟩
  unforced := by simp [Closer.fresh, Machine.fresh]
  phase := .inl ⟨nofun, by simp [Closer.fresh, Machine.fresh], rfl⟩

theorem WellClosed.next (h : WellClosed files w) (hregular : Regular files user w.machine input)
    (hspent : ShutsSpent files user w.machine input) (hnext : w.next files user input = some w') :
    WellClosed files w' := by
  obtain ⟨m, hm, rfl⟩ := Option.map_eq_some_iff.mp hnext
  have hunforced := hregular.unforced m hm
  refine ⟨h.ordered.next (fun _ _ => trivial) (fun _ _ _ _ => trivial) hm,
    Machine.intact_next h.intact h.ordered.stacked hregular.undisturbed hm, hunforced, ?_⟩
  rcases h.phase with hunshut | hclosing
  · exact hunshut.next hm hunforced hspent
  · exact .inr (hclosing.next hm h.unforced hunforced hregular.undisturbed)

theorem Spent.emptied (h : Spent m.conn m.stack)
    (hordered : Machine.Ordered files (fun _ => True) m) (hintact : Intact files m.conn m.stack)
    (hempty : m.conn.outputBuffer = []) : Emptied files m := by
  have hwaits : m.stack.filterMap Code.waits = [] :=
    List.filterMap_eq_nil_iff.mpr fun code hcode => (h.stack code hcode).1
  have hopening : m.stack.filterMap Code.opening = [] :=
    List.filterMap_eq_nil_iff.mpr fun code hcode => (h.stack code hcode).2.1
  have haccounted : (m.conn.started : Multiset (Numbered (Output Callback))) = m.conn.accepted := by
    have hbooks := hordered.sound.accounted
    simpa [Machine.ledger, books, hwaits, h.deferred, h.queued, hintact.dropped] using hbooks
  have hcurrent : (m.ledger files).current = none := by
    simp [Machine.ledger, books, current, hintact.unbroken, hopening, h.active]
  refine ⟨fun unit hunit => ?_, h.requests⟩
  have hstarted : unit ∈ m.conn.started := by
    rw [← Multiset.mem_coe, haccounted]
    exact hunit
  exact handed_of_flushed hordered.sound.written hempty hstarted (by simp [hcurrent])

theorem Emptied.flushed (h : Emptied files m) (hordered : Machine.Ordered files (fun _ => True) m) :
    m.conn.outputBuffer = [] := by
  have hstarted : ∀ unit ∈ m.conn.started, unit ∈ m.conn.accepted := by
    intro unit hunit
    rw [← Multiset.mem_coe, show (m.conn.accepted : Multiset (Numbered (Output Callback))) = _ from
      hordered.sound.accounted.symm, add_assoc]
    exact Multiset.mem_add.mpr (.inl hunit)
  have hremaining := hordered.sound.remaining_eq_nil fun unit hunit =>
    h.handed unit (hstarted unit hunit)
  exact (List.append_eq_nil_iff.mp hremaining).1

/-- **Graceful shutdown.** In a run in which `shutdown` is called when nothing waits, the write side
is shut down only after everything that was accepted has been handed to the socket; and no such
connection is left with nothing to send, nothing to happen and its write side open. -/
theorem shutdown_graceful {tls ktls : Bool} {owner : Owner}
    {inputs : List (Input Callback Outcome Task)}
    (hrun : Run (fun w input => Closer.next w files user input)
      (fun w input => Regular files user w.machine input ∧ ShutsSpent files user w.machine input)
      (Closer.fresh tls ktls owner) inputs w) :
    (w.writeClosed = true → Emptied files w.machine) ∧ ¬Stranded files w := by
  have h : WellClosed files w := hrun.invariant (WellClosed files)
    (fun _ _ _ h hok hnext => h.next hok.1 hok.2 hnext) (wellClosed_fresh tls ktls owner)
  constructor
  · intro hclosed
    rcases h.phase with hunshut | hclosing
    · exact absurd (hunshut.opened.symm.trans hclosed) nofun
    · exact hclosing.spent.emptied h.ordered h.intact (hclosing.flushed hclosed)
  · intro hstranded
    rcases h.phase with hunshut | hclosing
    · exact hunshut.state hstranded.state
    rcases hclosing.due hstranded.state hstranded.opened with hsome | hwriting | hin | ⟨hin, -⟩
    · exact hsome (hstranded.emptied.flushed h.ordered)
    · exact Bool.false_ne_true (hstranded.writing.symm.trans hwriting)
    · rw [hstranded.functors] at hin
      cases hin
    · rw [hstranded.idle] at hin
      cases hin

def regular (files : Bytes → Bytes) (user : User Callback Owner Outcome Task)
    (m : Machine Callback Owner) (input : Input Callback Outcome Task) : Bool :=
  (match input with
    | .fault | .openFailed | .failed => false
    | _ => true) &&
  (match m.stack.head? with
    | some (.startFileFrame frame) =>
      decide (frame.request.offset + frame.request.byteCount ≤ (files frame.request.path).length)
    | _ => true) &&
  (m.next files user input).all fun m' => m'.conn.functors.all fun functor =>
    match functor with
    | .forceCloseInLoop => false
    | _ => true

theorem regular_of_test (h : regular files user m input = true) : Regular files user m input := by
  obtain ⟨hothers, hunforced⟩ := Bool.and_eq_true_iff.mp h
  obtain ⟨hinput, hfits⟩ := Bool.and_eq_true_iff.mp hothers
  refine ⟨⟨?_, ?_, ?_, fun frame hhead => ?_⟩, fun m' hnext hin => ?_⟩
  · rintro rfl
    cases hinput
  · rintro rfl
    cases hinput
  · rintro rfl
    cases hinput
  · rw [hhead] at hfits
    unfold FileFrame.Fits
    exact of_decide_eq_true hfits
  · rw [hnext] at hunforced
    cases List.all_eq_true.mp hunforced _ hin

def shutsSpent [DecidableEq Callback] (files : Bytes → Bytes)
    (user : User Callback Owner Outcome Task) (m : Machine Callback Owner)
    (input : Input Callback Outcome Task) : Bool :=
  decide (m.conn.state ≠ .connected) || (m.next files user input).all fun m' =>
    decide (m'.conn.state = .disconnecting → m'.conn.tls = false ∧ m'.conn.activeFileSend = none ∧
      m'.conn.queuedFileFrames = [] ∧ m'.conn.deferredSends = [] ∧ m'.conn.functors = [] ∧
      m'.stack = [])

theorem shutsSpent_of_test [DecidableEq Callback] (h : shutsSpent files user m input = true) :
    ShutsSpent files user m input := by
  intro m' hnext hup hdown
  unfold shutsSpent at h
  rw [hnext] at h
  rcases Bool.or_eq_true_iff.mp h with hdown' | hspent
  · exact absurd hup (of_decide_eq_true hdown')
  · obtain ⟨hplain, hactive, hqueued, hdeferred, hfunctors, hstack⟩ := of_decide_eq_true hspent hdown
    exact ⟨hactive, hqueued, hdeferred, by simp [hfunctors], by simp [hstack], by simp [hplain]⟩

end Result

def lineBlocked : List (Input Unit Unit Unit) :=
  [.connectEstablished, .calls [], .run, .call (.send (utf8 "bye\n") none), .wantWrite]

theorem shutdown_graceful_line :
    ∃ w, Run (fun w input => Closer.next w (fun _ => []) passive input)
        (fun w input => Regular (fun _ => []) passive w.machine input ∧
          ShutsSpent (fun _ => []) passive w.machine input)
        (Closer.fresh false false ())
        (lineBlocked ++ [.call .shutdown, .writable, .wrote 4]) w ∧
      w.writeClosed = true ∧ w.machine.conn.emitted = utf8 "bye\n" ∧
      Emptied (fun _ => []) w.machine := by
  have hcheck : ∀ (w : Closer Unit Unit) (input : Input Unit Unit Unit),
      (regular (fun _ => []) passive w.machine input &&
        shutsSpent (fun _ => []) passive w.machine input) = true →
      Regular (fun _ => []) passive w.machine input ∧
        ShutsSpent (fun _ => []) passive w.machine input := by
    intro w input h
    obtain ⟨hregular, hspent⟩ := Bool.and_eq_true_iff.mp h
    exact ⟨regular_of_test hregular, shutsSpent_of_test hspent⟩
  have hreplay : (replay (fun w input => Closer.next w (fun _ => []) passive input)
      (fun w input => regular (fun _ => []) passive w.machine input &&
        shutsSpent (fun _ => []) passive w.machine input) (Closer.fresh false false ())
      (lineBlocked ++ [.call .shutdown, .writable, .wrote 4])).any (fun w =>
        decide (w.writeClosed = true ∧ w.machine.conn.emitted = utf8 "bye\n")) = true := by
    decide +kernel
  obtain ⟨w, hrun, htest⟩ := replay_reaches hcheck hreplay
  obtain ⟨hclosed, hemitted⟩ := of_decide_eq_true htest
  exact ⟨w, hrun, hclosed, hemitted, (shutdown_graceful hrun).1 hclosed⟩

def frameOpened : List (Input Unit Unit Unit) :=
  [.connectEstablished, .calls [], .run,
    .call (.sendFileFrame (utf8 "F\n") (utf8 "f") 0 1 none), .opened]

def headerBlocked : List (Input Unit Unit Unit) :=
  frameOpened ++ [.wantWrite, .run, .run, .wantWrite, .run, .call .shutdown, .writable, .run, .wrote 2]

def byteBlocked : List (Input Unit Unit Unit) :=
  frameOpened ++ [.wrote 2, .run, .run, .wantWrite, .call .shutdown, .writable, .run, .wrote 1, .run,
    .run, .run, .run, .run, .run]

/-- **A shutdown behind a frame.** The write side is shut down between the header of a frame and its
bytes; or it is never shut down, since the frame has ended and nothing else is to come. -/
theorem shutdown_behind_frame :
    (∃ w, Run (fun w input => Closer.next w (fun _ => [104]) passive input)
        (fun w input => Regular (fun _ => [104]) passive w.machine input)
        (Closer.fresh false false ()) headerBlocked w ∧
      w.writeClosed = true ∧ w.machine.conn.emitted = utf8 "F\n" ∧
      ¬Emptied (fun _ => [104]) w.machine) ∧
    ∃ w, Run (fun w input => Closer.next w (fun _ => [104]) passive input)
        (fun w input => Regular (fun _ => [104]) passive w.machine input)
        (Closer.fresh false false ()) byteBlocked w ∧
      w.machine.conn.emitted = utf8 "F\nh" ∧ Stranded (fun _ => [104]) w := by
  have hcheck : ∀ (w : Closer Unit Unit) (input : Input Unit Unit Unit),
      regular (fun _ => [104]) passive w.machine input = true →
      Regular (fun _ => [104]) passive w.machine input := fun _ _ => regular_of_test
  constructor
  · have hreplay : (replay (fun w input => Closer.next w (fun _ => [104]) passive input)
        (fun w input => regular (fun _ => [104]) passive w.machine input)
        (Closer.fresh false false ()) headerBlocked).any (fun w =>
          decide (w.writeClosed = true ∧ w.machine.conn.emitted = utf8 "F\n" ∧
            ∃ unit ∈ w.machine.conn.accepted,
              2 < (unit.request.bytes fun _ => [104]).length)) = true := by
      decide +kernel
    obtain ⟨w, hrun, htest⟩ := replay_reaches hcheck hreplay
    obtain ⟨hclosed, hemitted, unit, hunit, hlong⟩ := of_decide_eq_true htest
    refine ⟨w, hrun, hclosed, hemitted, fun hemptied => ?_⟩
    have hlength := (hemptied.handed unit hunit).length_le
    rw [show (w.machine.ledger fun _ => [104]).emitted = w.machine.conn.emitted from rfl,
      hemitted] at hlength
    exact absurd hlength (Nat.not_le_of_lt hlong)
  · have hreplay : (replay (fun w input => Closer.next w (fun _ => [104]) passive input)
        (fun w input => regular (fun _ => [104]) passive w.machine input)
        (Closer.fresh false false ()) byteBlocked).any (fun w =>
          decide (w.machine.conn.emitted = utf8 "F\nh" ∧
            w.machine.conn.accepted = w.machine.conn.started ∧
            concat (Output.bytes fun _ => [104]) w.machine.conn.started = w.machine.conn.emitted ∧
            w.machine.conn.state = .disconnecting ∧ w.machine.stack = [] ∧
            w.machine.conn.functors = [] ∧ w.machine.conn.writing = false ∧
            w.writeClosed = false)) = true := by
      decide +kernel
    obtain ⟨w, hrun, htest⟩ := replay_reaches hcheck hreplay
    obtain ⟨hemitted, haccepted, hall, hstate, hidle, hfunctors, hwriting, hopened⟩ :=
      of_decide_eq_true htest
    refine ⟨w, hrun, hemitted, ⟨fun unit hunit => ?_, by simp [hfunctors]⟩, hstate, hidle, hfunctors,
      hwriting, hopened⟩
    rw [haccepted] at hunit
    exact handed_of_concat (hall ▸ List.prefix_rfl) hunit

end ChatRoom.Net
