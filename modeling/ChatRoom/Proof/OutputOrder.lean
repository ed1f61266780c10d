import ChatRoom.Proof.OutputSteps

/-! # The queues of a connection -/

namespace ChatRoom.Net

open OutputLedger

variable {Callback Owner Outcome Task : Type}

namespace Code

def moves : Code Callback → Bool
  | .sendInLoop _ | .startFileFrame _ | .sendHeader _ | .activate _ | .sendFileBytes
  | .finishActiveFileSend | .drainDeferredSends | .startNextQueuedFileFrame | .user _ => true
  | _ => false

def closes : Code Callback → Bool
  | .handlePlainRead | .handleTlsRead _ | .driveTlsHandshake | .afterEstablished | .readPending
  | .handleClose => true
  | _ => false

end Code

/-- The steps that close the connection or begin to send what was deferred. -/
structure Turn (c : TcpConnection Callback) (code : Code Callback)
    (input : Input Callback Outcome Task) (c' : TcpConnection Callback)
    (more : List (Code Callback)) : Prop where
  closes : ∀ other ∈ more, other.closes = true →
    code.closes = true ∨ (input = .failed ∧ (code = .flushTlsOutput ∨ code = .sendFileBytes))
  drains : .drainDeferredSends ∈ more →
    code = .finishActiveFileSend ∨ code = .drainDeferredSends
  state : c'.state = .disconnected → c.state = .disconnected ∨ code = .handleClose
  stays : c.state = .disconnected → c'.state = .disconnected

/-- The steps that leave the queues alone. -/
structure QueuesKept (c c' : TcpConnection Callback) (more : List (Code Callback)) : Prop where
  started : c'.started = c.started
  accepted : c'.accepted = c.accepted
  dropped : c'.dropped = c.dropped
  broken : c'.broken = c.broken
  deferred : c'.deferredSends = c.deferredSends
  queued : c'.queuedFileFrames = c.queuedFileFrames
  active : c'.activeFileSend = c.activeFileSend
  waits : more.filterMap Code.waits = []

section Turns

variable {files : Bytes → Bytes} {c c' : TcpConnection Callback} {code : Code Callback}
  {more : List (Code Callback)} {input : Input Callback Outcome Task}

theorem turn_on (hcloses : ∀ other ∈ more, other.closes = true → code.closes = true)
    (hdrains : .drainDeferredSends ∉ more) (hstate : c'.state = c.state) :
    Turn c code input c' more :=
  ⟨fun other hother h => Or.inl (hcloses other hother h), fun h => absurd h hdrains,
    fun h => Or.inl (hstate.symm.trans h), hstate.trans⟩

theorem Leads.turn (h : Leads c code input more) : Turn c code input c more := by
  cases h with
  | fails hfails =>
    refine ⟨fun _ _ _ => ?_, by simp, Or.inl, id⟩
    unfold Code.Fails at hfails
    split at hfails <;> first | exact hfails.elim | simp [Code.closes]
  | resumes hresumes => cases hresumes <;> exact turn_on (by simp [Code.closes]) (by simp) rfl
  | _ => exact turn_on (by simp [Code.closes]) (by simp) rfl

theorem Leads.waits (h : Leads c code input more) (hquiet : code.moves = false) :
    more.filterMap Code.waits = [] := by
  cases h with
  | opened => cases hquiet
  | resumes hresumes => cases hresumes <;> rfl
  | _ => rfl

theorem Sets.kept (h : Sets c code input c' more) :
    QueuesKept c c' more ∧ Turn c code input c' more := by
  cases h with
  | readDone hresumes =>
    cases hresumes <;> exact ⟨⟨rfl, rfl, rfl, rfl, rfl, rfl, rfl, rfl⟩,
      turn_on (by simp [Code.closes]) (by simp) rfl⟩
  | readBlocked =>
    split <;> exact ⟨⟨rfl, rfl, rfl, rfl, rfl, rfl, rfl, rfl⟩,
      turn_on (by simp [Code.closes]) (by simp) rfl⟩
  | _ =>
    exact ⟨⟨rfl, rfl, rfl, rfl, rfl, rfl, rfl, rfl⟩,
      turn_on (by simp [Code.closes]) (by simp) rfl⟩

inductive Starts (c : TcpConnection Callback) : List (Code Callback) → Prop where
  | nothing : Starts c []
  | text (text : Numbered (TextSend Callback)) : c.state ≠ .disconnected →
      Starts c [.sendInLoop text]
  | frame (frame : Numbered (FileFrame Callback)) : Starts c [.startFileFrame frame]

theorem Starts.quiet (h : Starts c more) :
    (∀ other ∈ more, other.closes = false) ∧ .drainDeferredSends ∉ more := by
  cases h <;> simp [Code.closes]

theorem Starts.sending {text : Numbered (TextSend Callback)} (h : Starts c more)
    (calls : List (List (Call Callback)))
    (htext : (more ++ calls.map Code.user).head? = some (.sendInLoop text)) :
    c.state ≠ .disconnected := by
  cases h with
  | nothing => cases calls <;> cases htext
  | text _ hopen => exact hopen
  | frame => cases htext

theorem Starts.header (h : Starts c more) (frame : Numbered (FileFrame Callback))
    (calls : List (List (Call Callback))) :
    (more ++ calls.map Code.user).head? ≠ some (.sendHeader frame) := by
  cases h <;> cases calls <;> simp

theorem Accepts.starts {output : Output Callback} (h : Accepts c output c' more)
    (hopen : c.state ≠ .disconnected) : Starts c' more := by
  cases h with
  | text => exact .text _ hopen
  | queued => exact .nothing
  | frame => exact .frame _

theorem Called.starts {call : Call Callback} (h : Called c call c' more) : Starts c' more := by
  cases h with
  | accepts hup _ haccepts => exact haccepts.starts (by simp [hup])
  | _ => exact .nothing

theorem Called.state {call : Call Callback} (h : Called c call c' more)
    (hclosed : c'.state = .disconnected) : c.state = .disconnected := by
  cases h with
  | ignored => exact hclosed
  | accepts _ _ haccepts => cases haccepts <;> exact hclosed
  | shutdown => cases hclosed
  | forced => cases hclosed

theorem exec_turn (h : exec files c code input = some (c', more)) : Turn c code input c' more := by
  cases exec_does h with
  | leads hleads => exact hleads.turn
  | sets hsets => exact hsets.kept.2
  | text text hsends =>
    obtain ⟨hstate, -, -, hmore⟩ := hsends.frame
    rcases hmore with rfl | rfl <;> exact turn_on (by simp [Code.closes]) (by simp) hstate
  | header frame hsends =>
    obtain ⟨hstate, -, -, hmore⟩ := hsends.frame
    rcases hmore with rfl | rfl <;> exact turn_on (by simp [Code.closes]) (by simp) hstate
  | finishes => exact ⟨by simp [Code.closes], fun _ => Or.inl rfl, Or.inl, id⟩
  | drains => exact ⟨by simp [Code.closes], fun _ => Or.inr rfl, Or.inl, id⟩
  | closes =>
    split <;> exact ⟨by simp [Code.closes], by simp, fun _ => Or.inr rfl, fun _ => rfl⟩
  | forces hopen =>
    refine ⟨by simp, by simp, by simp, fun hclosed => ?_⟩
    simp [hclosed] at hopen
  | calls call calls =>
    have hcalled := call_called (c := c) call
    obtain ⟨hcloses, hdrains⟩ := hcalled.starts.quiet
    refine ⟨fun other hother hclose => ?_, fun hdrain => ?_, fun h => Or.inl (hcalled.state h),
      hcalled.begins.state⟩
    · rcases List.mem_append.mp hother with hother | hother
      · rw [hcloses other hother] at hclose
        cases hclose
      · rw [List.mem_singleton.mp hother] at hclose
        cases hclose
    · rcases List.mem_append.mp hdrain with hdrain | hdrain
      · exact absurd hdrain hdrains
      · cases List.mem_singleton.mp hdrain
  | _ => exact turn_on (by simp [Code.closes]) (by simp) rfl

theorem exec_quiet (hquiet : code.moves = false) (h : exec files c code input = some (c', more)) :
    QueuesKept c c' more ∧ Turn c code input c' more := by
  refine ⟨?_, exec_turn h⟩
  cases exec_does h with
  | leads hleads => exact ⟨rfl, rfl, rfl, rfl, rfl, rfl, rfl, hleads.waits hquiet⟩
  | sets hsets => exact hsets.kept.1
  | flushed | flushes | writes | writesAll | forces =>
    exact ⟨rfl, rfl, rfl, rfl, rfl, rfl, rfl, rfl⟩
  | closes => split <;> exact ⟨rfl, rfl, rfl, rfl, rfl, rfl, rfl, rfl⟩
  | _ => cases hquiet

end Turns

/-! ### Nothing is dropped -/

def FileFrame.Fits (files : Bytes → Bytes) (frame : FileFrame Callback) : Prop :=
  frame.offset + frame.byteCount ≤ (files frame.path).length

def Output.Whole (files : Bytes → Bytes) : Output Callback → Prop
  | .text _ => True
  | .frame file => file.Fits files

/-- An input without a broken pipe, a file that cannot be opened or is too short, or a write that
fails. -/
structure Undisturbed (files : Bytes → Bytes) (m : Machine Callback Owner)
    (input : Input Callback Outcome Task) : Prop where
  unbroken : input ≠ .fault
  opens : input ≠ .openFailed
  writes : input = .failed →
    m.stack.head? ≠ some .flushTlsOutput ∧ m.stack.head? ≠ some .sendFileBytes
  fits : ∀ frame, m.stack.head? = some (.startFileFrame frame) → frame.request.Fits files

/-- **Nothing is lost**: nothing has been dropped, and nothing on the stack will drop anything. -/
structure Intact (files : Bytes → Bytes) (c : TcpConnection Callback)
    (stack : List (Code Callback)) : Prop where
  dropped : c.dropped = []
  unbroken : c.broken = false
  draining : .drainDeferredSends ∈ stack → c.state ≠ .disconnected
  calm : stack.Pairwise fun above below => above.closes = true → below ≠ .drainDeferredSends
  sending : ∀ text, stack.head? = some (.sendInLoop text) → c.state ≠ .disconnected
  whole : ∀ unit ∈ c.started, unit.request.Whole files
  header : ∀ frame, stack.head? = some (.sendHeader frame) → frame.request.Fits files

section Intact

variable {files : Bytes → Bytes} {c c' : TcpConnection Callback} {code : Code Callback}
  {rest more : List (Code Callback)} {input : Input Callback Outcome Task}

theorem head_of_not_rests {other : Code Callback} (hbelow : ∀ below ∈ rest, below.rests = true)
    (hhead : (more ++ rest).head? = some other) (hother : other.rests = false) :
    more.head? = some other := by
  cases more with
  | nil =>
    have hrests := hbelow other (List.mem_of_mem_head? hhead)
    rw [hother] at hrests
    cases hrests
  | cons first more => exact hhead

theorem Intact.turn (h : Intact files c (code :: rest)) (hstack : Stacked c (code :: rest))
    (hwrites : input = .failed → code ≠ .flushTlsOutput ∧ code ≠ .sendFileBytes)
    (hturn : Turn c code input c' more) :
    (.drainDeferredSends ∈ more ++ rest → c'.state ≠ .disconnected) ∧
      (more ++ rest).Pairwise fun above below =>
        above.closes = true → below ≠ .drainDeferredSends := by
  obtain ⟨hcalm, hrest⟩ := List.pairwise_cons.mp h.calm
  have hcloses : ∀ other ∈ more, other.closes = true → code.closes = true := by
    intro other hother hclose
    rcases hturn.closes other hother hclose with hcode | ⟨hfailed, hcode⟩
    · exact hcode
    · rcases hcode with rfl | rfl
      · exact absurd rfl (hwrites hfailed).1
      · exact absurd rfl (hwrites hfailed).2
  constructor
  · intro hdrain hclosed
    rcases List.mem_append.mp hdrain with hdrain | hdrain
    · rcases hturn.drains hdrain with rfl | rfl
      · rcases hturn.state hclosed with hclosed | hcode
        · exact (hstack.poised _ rfl).2.1 hclosed
        · cases hcode
      · rcases hturn.state hclosed with hclosed | hcode
        · exact h.draining List.mem_cons_self hclosed
        · cases hcode
    · rcases hturn.state hclosed with hclosed | rfl
      · exact h.draining (List.mem_cons_of_mem _ hdrain) hclosed
      · exact hcalm _ hdrain rfl rfl
  · refine List.pairwise_append.mpr ⟨?_, hrest, ?_⟩
    · refine List.pairwise_of_forall_mem_list fun above habove below hbelow hclose => ?_
      rintro rfl
      have hcode := hcloses above habove hclose
      rcases hturn.drains hbelow with rfl | rfl <;> cases hcode
    · intro above habove below hbelow hclose
      exact hcalm below hbelow (hcloses above habove hclose)

theorem Intact.after (h : Intact files c (code :: rest)) (hstack : Stacked c (code :: rest))
    (hwrites : input = .failed → code ≠ .flushTlsOutput ∧ code ≠ .sendFileBytes)
    (hturn : Turn c code input c' more) (hdropped : c'.dropped = []) (hbroken : c'.broken = false)
    (hwhole : ∀ unit ∈ c'.started, unit.request.Whole files)
    (hsending : ∀ text, more.head? = some (.sendInLoop text) → c'.state ≠ .disconnected)
    (hheader : ∀ frame, more.head? = some (.sendHeader frame) → frame.request.Fits files) :
    Intact files c' (more ++ rest) := by
  obtain ⟨hdraining, hcalm⟩ := h.turn hstack hwrites hturn
  exact ⟨hdropped, hbroken, hdraining, hcalm,
    fun text htext => hsending text (head_of_not_rests hstack.below htext rfl), hwhole,
    fun frame hframe => hheader frame (head_of_not_rests hstack.below hframe rfl)⟩

theorem intact_sends {unit : Numbered (Output Callback)} {text : Numbered (TextSend Callback)}
    (h : Intact files c (code :: rest)) (hopen : c.state ≠ .disconnected)
    (hsends : Sends c unit text c' more) (hunit : unit.request.Whole files)
    (hbroken : c'.broken = c.broken) :
    c'.dropped = [] ∧ c'.broken = false ∧ ∀ unit ∈ c'.started, unit.request.Whole files := by
  have hstarted : ∀ other ∈ c.started ++ [unit], other.request.Whole files := by
    intro other hother
    rcases List.mem_append.mp hother with hother | hother
    · exact h.whole other hother
    · rw [List.mem_singleton.mp hother]
      exact hunit
  rw [h.unbroken] at hbroken
  cases hsends with
  | closed hclosed => exact absurd hclosed hopen
  | deferred => exact ⟨h.dropped, hbroken, h.whole⟩
  | broke => cases hbroken
  | gone | kept | sent => exact ⟨h.dropped, hbroken, hstarted⟩

theorem Intact.exec (h : Intact files c (code :: rest)) (hstack : Stacked c (code :: rest))
    (hfault : input ≠ .fault) (hopens : input ≠ .openFailed)
    (hwrites : input = .failed → code ≠ .flushTlsOutput ∧ code ≠ .sendFileBytes)
    (hfits : ∀ frame, code = .startFileFrame frame → frame.request.Fits files)
    (hexec : exec files c code input = some (c', more)) : Intact files c' (more ++ rest) := by
  have hturn := exec_turn hexec
  by_cases hmoves : code.moves = false
  · obtain ⟨hkept, -⟩ := exec_quiet hmoves hexec
    have hnone : ∀ other, more.head? = some other → other.waits = none := fun other hother =>
      List.filterMap_eq_nil_iff.mp hkept.waits other (List.mem_of_mem_head? hother)
    refine h.after hstack hwrites hturn (hkept.dropped.trans h.dropped)
      (hkept.broken.trans h.unbroken) (by rw [hkept.started]; exact h.whole) ?_ ?_
    · intro text htext
      cases hnone _ htext
    · intro frame hframe
      cases hnone _ hframe
  cases exec_does hexec with
  | leads hleads =>
    refine h.after hstack hwrites hturn h.dropped h.unbroken h.whole ?_ ?_
    · cases hleads with
      | resumes => exact absurd rfl hmoves
      | _ => simp
    · cases hleads with
      | resumes => exact absurd rfl hmoves
      | opened frame => exact fun other hother => by cases hother; exact hfits frame rfl
      | _ => simp
  | sets hsets =>
    cases hsets with
    | fileBlocked | fileReads =>
      exact h.after hstack hwrites hturn h.dropped h.unbroken h.whole (by simp) (by simp)
    | _ => exact absurd rfl hmoves
  | text text hsends hbroken =>
    obtain ⟨hdropped, hbroken, hwhole⟩ :=
      intact_sends h (h.sending text rfl) hsends trivial (hbroken hfault)
    obtain ⟨-, -, -, hmore⟩ := hsends.frame
    rcases hmore with rfl | rfl <;>
      exact h.after hstack hwrites hturn hdropped hbroken hwhole (by simp) (by simp)
  | header frame hsends hbroken =>
    obtain ⟨-, hopen⟩ : c.activeFileSend = none ∧ c.state ≠ .disconnected := hstack.poised _ rfl
    obtain ⟨hdropped, hbroken, hwhole⟩ :=
      intact_sends h hopen hsends (h.header frame rfl) (hbroken hfault)
    obtain ⟨-, -, -, hmore⟩ := hsends.frame
    rcases hmore with rfl | rfl <;>
      exact h.after hstack hwrites hturn hdropped hbroken hwhole (by simp) (by simp)
  | drops frame hclosed =>
    obtain ⟨-, hopen⟩ : c.activeFileSend = none ∧ c.state ≠ .disconnected := hstack.poised _ rfl
    exact absurd hclosed hopen
  | openFails => exact absurd rfl hopens
  | activates | fileBytes | finishes | starts =>
    exact h.after hstack hwrites hturn h.dropped h.unbroken h.whole (by simp) (by simp)
  | drains =>
    exact h.after hstack hwrites hturn h.dropped h.unbroken h.whole
      (fun _ _ => h.draining List.mem_cons_self) (by simp)
  | calls call calls =>
    have hcalled := call_called (c := c) call
    have hbegins := hcalled.begins
    exact h.after hstack hwrites hturn (hbegins.dropped.trans h.dropped)
      (hbegins.broken.trans h.unbroken) (by rw [hbegins.started]; exact h.whole)
      (fun _ htext => hcalled.starts.sending [calls] htext)
      fun _ hframe => absurd hframe (hcalled.starts.header _ [calls])
  | _ => exact absurd rfl hmoves

theorem Arises.kept (h : Arises c input c' more) :
    QueuesKept c c' more ∧ .drainDeferredSends ∉ more ∧
      (c'.state = .disconnected ↔ c.state = .disconnected) := by
  cases h with
  | write hresumes => cases hresumes <;> exact ⟨⟨rfl, rfl, rfl, rfl, rfl, rfl, rfl, rfl⟩, by simp, .rfl⟩
  | connectTls hyoung | connectKnown hyoung | connects hyoung =>
    exact ⟨⟨rfl, rfl, rfl, rfl, rfl, rfl, rfl, rfl⟩, by simp, by simp [hyoung]⟩
  | _ => exact ⟨⟨rfl, rfl, rfl, rfl, rfl, rfl, rfl, rfl⟩, by simp, .rfl⟩

theorem Intact.begun (h : Intact files c []) (hdropped : c'.dropped = c.dropped)
    (hbroken : c'.broken = c.broken) (hstarted : c'.started = c.started)
    (hstarts : Starts c' more ∨ ∀ code ∈ more, code.waits = none ∧ code ≠ .drainDeferredSends) :
    Intact files c' more := by
  have hdrains : .drainDeferredSends ∉ more := by
    intro hdrain
    rcases hstarts with hstarts | hstarts
    · exact hstarts.quiet.2 hdrain
    · exact (hstarts _ hdrain).2 rfl
  refine ⟨hdropped.trans h.dropped, hbroken.trans h.unbroken,
    fun hdrain => absurd hdrain hdrains, ?_, ?_, by rw [hstarted]; exact h.whole, ?_⟩
  · refine List.pairwise_of_forall_mem_list fun above _ below hbelow _ => ?_
    rintro rfl
    exact hdrains hbelow
  · intro text htext
    rcases hstarts with hstarts | hstarts
    · exact hstarts.sending [] (by rwa [List.map_nil, List.append_nil])
    · cases (hstarts _ (List.mem_of_mem_head? htext)).1
  · intro frame hframe
    rcases hstarts with hstarts | hstarts
    · refine absurd hframe ?_
      simpa using hstarts.header frame []
    · cases (hstarts _ (List.mem_of_mem_head? hframe)).1

theorem Intact.wake (h : Intact files c []) (hwake : wake c input = some (c', more)) :
    Intact files c' more := by
  cases wake_wakes hwake with
  | call call hcalled =>
    have hbegins := hcalled.begins
    exact h.begun hbegins.dropped hbegins.broken hbegins.started (Or.inl hcalled.starts)
  | functor functor functors hfunctors hran =>
    have hbegins := hran.begins
    refine h.begun hbegins.dropped hbegins.broken hbegins.started ?_
    cases hran with
    | ignored => exact Or.inl .nothing
    | accepts hopen _ haccepts => exact Or.inl (haccepts.starts hopen)
    | closes => simp [Code.waits]
    | completion => simp [Code.waits]
  | event harises =>
    obtain ⟨hkept, hdrains, -⟩ := harises.kept
    refine h.begun hkept.dropped hkept.broken hkept.started (Or.inr fun code hcode => ?_)
    refine ⟨List.filterMap_eq_nil_iff.mp hkept.waits code hcode, ?_⟩
    rintro rfl
    exact hdrains hcode

theorem Intact.post {stack : List (Code Callback)} (h : Intact files c stack) (call : Call Callback) :
    Intact files (c.post call) stack := by
  have hbegins := (post_posted (c := c) call).begins
  have hopen := mt (Machine.post_state (c := c) call)
  exact ⟨hbegins.dropped.trans h.dropped, hbegins.broken.trans h.unbroken,
    fun hdrain => hopen (h.draining hdrain), h.calm, fun text htext => hopen (h.sending text htext),
    by rw [hbegins.started]; exact h.whole, h.header⟩

theorem Intact.postAll {stack : List (Code Callback)} (h : Intact files c stack)
    (calls : List (Call Callback)) : Intact files (calls.foldl TcpConnection.post c) stack := by
  induction calls generalizing c with
  | nil => exact h
  | cons call calls ih => exact ih (h.post call)

end Intact

namespace Machine

variable {files : Bytes → Bytes} {user : User Callback Owner Outcome Task}
  {m m' : Machine Callback Owner} {input : Input Callback Outcome Task}

theorem complete_cases {unit : Numbered (Output Callback)} {rest : List (Code Callback)}
    (h : m.complete user unit rest input = some m') :
    ∃ more : List (Code Callback), (more = [] ∨ ∃ calls, more = [.user calls]) ∧
      m'.conn = m.conn ∧ m'.stack = more ++ rest := by
  unfold complete at h
  split at h
  · obtain ⟨-, rfl⟩ := proceed_eq_some h
    exact ⟨[], Or.inl rfl, rfl, rfl⟩
  · split at h
    · cases h
      exact ⟨_, Or.inr ⟨_, rfl⟩, rfl, rfl⟩
    · cases h

theorem intact_next (h : Intact files m.conn m.stack) (hstack : Stacked m.conn m.stack)
    (hundisturbed : Undisturbed files m input) (hnext : m.next files user input = some m') :
    Intact files m'.conn m'.stack := by
  cases next_cases hnext with
  | post call => exact h.post call
  | background task => exact h.postAll _
  | wake _ c more hidle hwake =>
    rw [hidle] at h
    exact h.wake hwake
  | complete _ unit rest _ hcompletion hcomplete =>
    rw [hcompletion] at h hstack
    obtain ⟨more, hcalls, hconn, hstack'⟩ := complete_cases hcomplete
    have hturn : Turn m.conn (.completion unit) input m.conn more := by
      refine turn_on ?_ ?_ rfl <;> rcases hcalls with rfl | ⟨calls, rfl⟩ <;> simp [Code.closes]
    have hkept : Intact files m.conn (more ++ rest) := by
      refine h.after hstack (by simp) hturn h.dropped h.unbroken h.whole ?_ ?_ <;>
        rcases hcalls with rfl | ⟨calls, rfl⟩ <;> simp
    rwa [hconn, hstack']
  | exec _ code rest more c hcode hexec =>
    rw [hcode] at h hstack
    refine h.exec hstack hundisturbed.unbroken hundisturbed.opens ?_ ?_ hexec
    · intro hfailed
      have hwrites := hundisturbed.writes hfailed
      rw [hcode] at hwrites
      exact ⟨fun heq => hwrites.1 (by rw [heq]; rfl), fun heq => hwrites.2 (by rw [heq]; rfl)⟩
    · rintro frame rfl
      exact hundisturbed.fits frame (by rw [hcode]; rfl)

end Machine

end ChatRoom.Net
