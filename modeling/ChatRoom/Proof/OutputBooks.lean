import ChatRoom.Server.Connection
import Mathlib.Tactic.Abel

/-! # The books of a connection -/

namespace ChatRoom.Net

open OutputLedger

variable {Callback Owner Outcome Task : Type}
variable {frame : Numbered (FileFrame Callback)} {file : PendingFileSend Callback} {count : Nat}

def Call.output : Call Callback → Option (Output Callback)
  | .send message completion => some (.text ⟨message, completion⟩)
  | .sendFileFrame header path offset byteCount completion =>
    some (.frame ⟨header, path, offset, byteCount, completion⟩)
  | .shutdown | .forceClose => none

namespace Functor

def request : Functor Callback → Option (Output Callback)
  | .sendInLoop message callback => some (.text ⟨message, callback⟩)
  | .sendFileFrameInLoop header path offset byteCount callback =>
    some (.frame ⟨header, path, offset, byteCount, callback⟩)
  | _ => none

def ready : Functor Callback → Option (Numbered (Output Callback))
  | completion unit => some unit
  | _ => none

end Functor

namespace Code

def waits : Code Callback → Option (Numbered (Output Callback))
  | .sendInLoop text => some (textUnit text)
  | .startFileFrame frame | .sendHeader frame => some (frameUnit frame)
  | _ => none

def opening : Code Callback → Option (Numbered (FileFrame Callback))
  | .activate frame => some frame
  | _ => none

def requests : Code Callback → List (Output Callback)
  | .user calls => calls.filterMap Call.output
  | _ => []

def ready : Code Callback → Option (Numbered (Output Callback))
  | .completion unit => some unit
  | _ => none

def rests : Code Callback → Bool
  | .sendInLoop _ | .startFileFrame _ | .sendHeader _ | .sendFileBytes | .finishActiveFileSend =>
    false
  | _ => true

def precedes : Code Callback → Bool
  | .flushTlsOutput | .handleClose => true
  | _ => false

end Code

/-- The unit that is going out, with the bytes that are left of it: that of the frame about to be
activated, or of the active one. -/
def current (files : Bytes → Bytes) (c : TcpConnection Callback) (stack : List (Code Callback)) :
    Option (Numbered (Output Callback) × Bytes) :=
  if c.broken then none
  else
    match stack.filterMap Code.opening with
    | frame :: _ =>
      some (frameUnit frame,
        fileBytes files frame.request.path frame.request.offset frame.request.byteCount)
    | [] =>
      c.activeFileSend.map fun file =>
        (frameUnit file.frame,
          fileBytes files file.frame.request.path file.offset file.remaining)

/-- **The books.** What is asked for, accepted, waiting and on its way out, read off the fields of
the connection and the codes that it still has to run. -/
def books (files : Bytes → Bytes) (c : TcpConnection Callback) (stack : List (Code Callback))
    (fired : List (Numbered (Output Callback))) : Ledger (Output Callback) UInt8 where
  requested := (stack.flatMap Code.requests : Multiset (Output Callback)) +
    (c.functors.filterMap Functor.request : Multiset (Output Callback))
  accepted := c.accepted
  waiting := (stack.filterMap Code.waits : Multiset (Numbered (Output Callback))) +
    (c.deferredSends.map textUnit : Multiset (Numbered (Output Callback))) +
    (c.queuedFileFrames.map frameUnit : Multiset (Numbered (Output Callback)))
  dropped := c.dropped
  started := c.started
  current := current files c stack
  buffered := c.outputBuffer
  emitted := c.emitted
  live := (stack.filterMap Code.waits : Multiset (Numbered (Output Callback))) +
    ((stack.filterMap Code.opening).map frameUnit :
      Multiset (Numbered (Output Callback))) +
    (c.deferredSends.map textUnit : Multiset (Numbered (Output Callback))) +
    (c.queuedFileFrames.map frameUnit : Multiset (Numbered (Output Callback))) +
    (c.activeFileSend.toList.map (fun file => frameUnit file.frame) :
      Multiset (Numbered (Output Callback))) +
    (c.pendingSendCompletions.map textUnit : Multiset (Numbered (Output Callback)))
  ready := (stack.filterMap Code.ready : Multiset (Numbered (Output Callback))) +
    (c.functors.filterMap Functor.ready : Multiset (Numbered (Output Callback)))
  fired := fired

/-- Beyond the codes that run first, only the next code may be about to activate a frame. -/
def Clear (stack : List (Code Callback)) : Prop :=
  (stack.dropWhile Code.precedes).tail.filterMap Code.opening = []

/-- What a code finds when it comes to run. -/
def Code.Poised (c : TcpConnection Callback) : Code Callback → Prop
  | .startFileFrame _ | .sendHeader _ => c.activeFileSend = none ∧ c.state ≠ .disconnected
  | .sendFileBytes => c.outputBuffer = [] ∧ c.state ≠ .disconnected
  | .finishActiveFileSend =>
    c.outputBuffer = [] ∧ c.state ≠ .disconnected ∧
      ∀ file, c.activeFileSend = some file → file.remaining = 0
  | _ => True

/-- **The stack.** At most one frame is active or about to be, and only the code on top acts on the
output. -/
structure Stacked (c : TcpConnection Callback) (stack : List (Code Callback)) : Prop where
  alone : (stack.filterMap Code.opening).length + c.activeFileSend.toList.length ≤ 1
  clear : c.state = .disconnected ∨ Clear stack
  poised : ∀ code ∈ stack.head?, code.Poised c
  below : ∀ code ∈ stack.tail, code.rests = true
  opening : ∀ frame ∈ stack.filterMap Code.opening, c.broken = true → frameUnit frame ∈ c.dropped

/-- **The fields.** A connection that broke is a plain one with nothing to write, and its frame has
been dropped. -/
structure Tidy (c : TcpConnection Callback) : Prop where
  silent : c.broken = true → c.tls = false ∧ c.writing = false ∧ c.outputBuffer = []
  pending : ∀ text ∈ c.pendingSendCompletions, textUnit text ∈ c.started
  active : ∀ file, c.activeFileSend = some file → c.broken = true →
    frameUnit file.frame ∈ c.dropped ∧ file.remaining = file.frame.request.byteCount

section Stacks

variable {c c' : TcpConnection Callback} {code : Code Callback} {rest stack : List (Code Callback)}

theorem clear_of_no_opening (h : stack.filterMap Code.opening = []) : Clear stack := by
  rw [Clear, List.filterMap_eq_nil_iff]
  rw [List.filterMap_eq_nil_iff] at h
  intro code hcode
  exact h code ((List.dropWhile_sublist _).subset (List.mem_of_mem_tail hcode))

theorem no_opening_of_clear (h : Clear (code :: rest)) (hprecedes : code.precedes = false) :
    rest.filterMap Code.opening = [] := by
  rwa [Clear, List.dropWhile_cons_of_neg (by simp [hprecedes])] at h

theorem Tidy.unbroken (h : Tidy c)
    (hlive : c.broken = true → c.tls = false → c.writing = false → c.outputBuffer ≠ []) :
    c.broken = false := by
  by_contra hbroken
  rw [Bool.not_eq_false] at hbroken
  obtain ⟨hplain, hidle, hempty⟩ := h.silent hbroken
  exact hlive hbroken hplain hidle hempty

theorem poised_of_rests (h : code.rests = true) : code.Poised c := by
  cases code <;> trivial

end Stacks

/-! ### How `sendInLoop` ends -/

namespace TcpConnection

def taken (c : TcpConnection Callback) (unit : Numbered (Output Callback)) (first rest : Bytes)
    (writing : Bool) : TcpConnection Callback :=
  { c with
    started := c.started ++ [unit]
    emitted := c.emitted ++ first
    outputBuffer := c.outputBuffer ++ rest
    writing := writing }

end TcpConnection

/-- How `sendInLoop` ends: the text is dropped, deferred, buffered or sent. -/
inductive Sends (c : TcpConnection Callback) (unit : Numbered (Output Callback))
    (text : Numbered (TextSend Callback)) :
    TcpConnection Callback → List (Code Callback) → Prop where
  | closed : c.state = .disconnected → Sends c unit text (c.drop unit) []
  | deferred : c.state ≠ .disconnected → c.activeFileSend.isSome →
      Sends c unit text { c with deferredSends := c.deferredSends ++ [text] } []
  | broke : c.state ≠ .disconnected → c.activeFileSend = none → c.tls = false →
      c.writing = false → c.outputBuffer = [] →
      Sends c unit text { c.drop unit with broken := true } []
  | gone {code} (first rest : Bytes) (writing : Bool) :
      c.state ≠ .disconnected → c.activeFileSend = none →
      (c.broken = true → c.tls = false → c.writing = false → c.outputBuffer ≠ []) →
      text.request.message = first ++ rest → (first = [] ∨ c.outputBuffer = []) →
      (code = [] ∨ code = [.flushTlsOutput]) →
      Sends c unit text (c.taken unit first rest writing) code
  | kept {code} (first rest : Bytes) (writing : Bool) :
      c.state ≠ .disconnected → c.activeFileSend = none →
      (c.broken = true → c.tls = false → c.writing = false → c.outputBuffer ≠ []) →
      text.request.message = first ++ rest → (first = [] ∨ c.outputBuffer = []) →
      (code = [] ∨ code = [.flushTlsOutput]) → text.request.completion.isSome →
      Sends c unit text
        { c.taken unit first rest writing with
          pendingSendCompletions := c.pendingSendCompletions ++ [text] } code
  | sent : c.state ≠ .disconnected → c.activeFileSend = none → c.broken = false →
      c.outputBuffer = [] → text.request.completion.isSome →
      Sends c unit text
        { c.taken unit text.request.message [] c.writing with
          functors := c.functors ++ [.completion (textUnit text)] } []

section SendInLoop

variable {c c' : TcpConnection Callback} {unit : Numbered (Output Callback)}
  {text : Numbered (TextSend Callback)} {code : List (Code Callback)}
  {input : Input Callback Outcome Task}

theorem proceed_eq_some {α : Type} {value result : α}
    (h : input.proceed value = some result) : input = .run ∧ value = result := by
  cases input <;> simp_all [Input.proceed]

theorem sends_keepRest (unit : Numbered (Output Callback)) (text : Numbered (TextSend Callback))
    (first rest : Bytes) (hstate : c.state ≠ .disconnected) (hidle : c.activeFileSend = none)
    (hlive : c.broken = true → c.tls = false → c.writing = false → c.outputBuffer ≠ [])
    (hmessage : text.request.message = first ++ rest) (hfirst : first = [] ∨ c.outputBuffer = []) :
    Sends c unit text
      ({ c.start unit with emitted := c.emitted ++ first }.keepRest rest text) [] := by
  have hgone : ∀ writing, Sends c unit text (c.taken unit first rest writing) [] :=
    fun writing => .gone first rest writing hstate hidle hlive hmessage hfirst (Or.inl rfl)
  unfold TcpConnection.keepRest
  split
  · rename_i hrest
    subst hrest
    simpa [TcpConnection.taken, TcpConnection.start] using hgone c.writing
  · by_cases hcompletion : text.request.completion.isSome
    · have hkept : Sends c unit text _ [] :=
        .kept first rest true hstate hidle hlive hmessage hfirst (Or.inl rfl) hcompletion
      simpa [TcpConnection.taken, TcpConnection.start, TcpConnection.append, hcompletion] using hkept
    · simpa [TcpConnection.taken, TcpConnection.start, TcpConnection.append, hcompletion] using
        hgone true

theorem directSend_cases (hstate : c.state ≠ .disconnected) (hidle : c.activeFileSend = none)
    (htls : c.tls = false) (hwriting : c.writing = false) (hempty : c.outputBuffer = [])
    (h : c.directSend unit text input = some c') : Sends c unit text c' [] := by
  have hkeep : c.broken = false →
      Sends c unit text ((c.start unit).keepRest text.request.message text) [] := by
    intro hsound
    have hrest := sends_keepRest unit text [] text.request.message hstate hidle
      (fun hbroken => absurd hbroken (by simp [hsound])) rfl (Or.inl rfl)
    simpa [TcpConnection.start] using hrest
  unfold TcpConnection.directSend at h
  split at h
  · dsimp only at h
    split at h
    · rename_i count hcount
      obtain ⟨hle, hsound⟩ := hcount
      have hlive : c.broken = true → c.tls = false → c.writing = false → c.outputBuffer ≠ [] :=
        fun hbroken => absurd hbroken (by simp [hsound])
      cases h
      split
      · rename_i hall
        subst hall
        by_cases hcompletion : text.request.completion.isSome
        · have hsent : Sends c unit text _ [] := .sent hstate hidle hsound hempty hcompletion
          simpa [TcpConnection.taken, TcpConnection.start, TcpConnection.queueCompletion,
            hcompletion] using hsent
        · have hgone : Sends c unit text (c.taken unit text.request.message [] c.writing) [] :=
            .gone text.request.message [] c.writing hstate hidle hlive (List.append_nil _).symm
              (Or.inr hempty) (Or.inl rfl)
          simpa [TcpConnection.taken, TcpConnection.start, TcpConnection.queueCompletion,
            hcompletion] using hgone
      · exact sends_keepRest unit text _ _ hstate hidle hlive
          (List.take_append_drop count _).symm (Or.inr hempty)
    · cases h
  all_goals first
    | (split at h
       · cases h
       · rename_i hsound
         cases h
         exact hkeep (by simpa using hsound))
    | (cases h
       exact .broke hstate hidle htls hwriting hempty)
    | cases h

/-- Every run of `sendInLoop` ends in one of these ways. -/
theorem sendInLoop_cases (h : c.sendInLoop unit text input = some (c', code)) :
    Sends c unit text c' code := by
  unfold TcpConnection.sendInLoop at h
  split at h
  · rename_i hstate
    obtain ⟨-, heq⟩ := proceed_eq_some h
    cases heq
    exact .closed hstate
  rename_i hstate
  split at h
  · rename_i hactive
    obtain ⟨-, heq⟩ := proceed_eq_some h
    cases heq
    exact .deferred hstate hactive
  rename_i hactive
  have hidle : c.activeFileSend = none := by simpa using hactive
  split at h
  · rename_i htls
    obtain ⟨-, heq⟩ := proceed_eq_some h
    cases heq
    have hcode : ∀ ready : Bool,
        (if ready = true then [.flushTlsOutput] else []) = ([] : List (Code Callback)) ∨
          (if ready = true then [.flushTlsOutput] else []) =
            ([.flushTlsOutput] : List (Code Callback)) := by
      intro ready
      cases ready
      · exact Or.inl rfl
      · exact Or.inr rfl
    have hlive : c.broken = true → c.tls = false → c.writing = false → c.outputBuffer ≠ [] :=
      fun _ hplain => absurd hplain (by simp [htls])
    by_cases hcompletion : text.request.completion.isSome
    · have hkept : Sends c unit text _ _ :=
        .kept [] text.request.message c.writing hstate hidle hlive rfl (Or.inl rfl)
          (hcode c.tlsHandshakeComplete) hcompletion
      simpa [TcpConnection.taken, TcpConnection.start, TcpConnection.append, hcompletion] using hkept
    · have hgone : Sends c unit text (c.taken unit [] text.request.message c.writing) _ :=
        .gone [] text.request.message c.writing hstate hidle hlive rfl (Or.inl rfl)
          (hcode c.tlsHandshakeComplete)
      simpa [TcpConnection.taken, TcpConnection.start, TcpConnection.append, hcompletion] using hgone
  rename_i htls
  split at h
  · rename_i hdirect
    obtain ⟨sent, hsent, heq⟩ := Option.map_eq_some_iff.mp h
    cases heq
    exact directSend_cases hstate hidle (by simpa using htls) hdirect.1 hdirect.2 hsent
  · rename_i hbusy
    obtain ⟨-, heq⟩ := proceed_eq_some h
    cases heq
    have hrest := sends_keepRest unit text [] text.request.message hstate hidle
      (fun _ _ hwriting hempty => hbusy ⟨hwriting, hempty⟩) rfl (Or.inl rfl)
    simpa [TcpConnection.start] using hrest

end SendInLoop

/-! ### Every step is an entry in the books -/

section Refinement

variable {files : Bytes → Bytes} {foreign unsent : Output Callback → Prop}
  {client : Client (Output Callback) Owner Outcome Task}
  {c c' : TcpConnection Callback} {rest stack : List (Code Callback)}
  {fired : List (Numbered (Output Callback))} {owner : Owner}

variable (files foreign unsent client) in
abbrev Entries (first last : Ledger (Output Callback) UInt8 × Owner) : Prop :=
  Relation.ReflTransGen (Step (Output.bytes files) foreign unsent client) first last

theorem coe_cons_eq {α : Type} (a : α) (l : List α) :
    ((a :: l : List α) : Multiset α) = (l : Multiset α) + {a} := by
  rw [← Multiset.cons_coe, ← Multiset.singleton_add, add_comm]

theorem coe_concat_eq {α : Type} (l : List α) (a : α) :
    ((l ++ [a] : List α) : Multiset α) = (l : Multiset α) + {a} := by
  rw [← Multiset.coe_add, Multiset.coe_singleton]

def queued (ledger : Ledger (Output Callback) UInt8) (unit : Numbered (Output Callback)) :
    Ledger (Output Callback) UInt8 :=
  { ledger with waiting := ledger.waiting + {unit}, live := ledger.live + {unit} }

theorem books_waits {code : Code Callback} {unit : Numbered (Output Callback)}
    (hwaits : code.waits = some unit) :
    books files c (code :: rest) fired = queued (books files c rest fired) unit := by
  have hrest : code.opening = none ∧ code.requests = [] ∧ code.ready = none := by
    cases code <;> first | exact ⟨rfl, rfl, rfl⟩ | cases hwaits
  obtain ⟨hopening, hrequests, hready⟩ := hrest
  apply Ledger.ext <;> try rfl
  case requested => simp only [books, queued, List.flatMap_cons, hrequests, List.nil_append]
  case current => simp only [books, queued, current, List.filterMap_cons, hopening]
  case ready => simp only [books, queued, List.filterMap_cons, hready]
  all_goals
    simp only [books, queued, List.filterMap_cons, hwaits, hopening, coe_cons_eq]
    abel

theorem books_completion (files : Bytes → Bytes) (c : TcpConnection Callback)
    (rest : List (Code Callback)) (fired : List (Numbered (Output Callback)))
    (unit : Numbered (Output Callback)) :
    (books files c (.completion unit :: rest) fired).ready =
      (books files c rest fired).ready + {unit} := by
  simp only [books, List.filterMap_cons, Code.ready, coe_cons_eq]
  abel

theorem books_deferred (text : Numbered (TextSend Callback)) :
    books files { c with deferredSends := c.deferredSends ++ [text] } stack fired =
      queued (books files c stack fired) (textUnit text) := by
  apply Ledger.ext <;> try rfl
  all_goals
    simp only [books, queued, List.map_append, List.map_singleton, coe_concat_eq]
    abel

theorem books_queuedFrame (c : TcpConnection Callback) (frame : Numbered (FileFrame Callback)) :
    books files { c with queuedFileFrames := c.queuedFileFrames ++ [frame] } stack fired =
      queued (books files c stack fired) (frameUnit frame) := by
  apply Ledger.ext <;> try rfl
  all_goals
    simp only [books, queued, List.map_append, List.map_singleton, coe_concat_eq]
    abel

theorem refines_drain {text : Numbered (TextSend Callback)}
    {texts : List (Numbered (TextSend Callback))} (hdeferred : c.deferredSends = text :: texts) :
    books files c (.drainDeferredSends :: rest) fired =
      books files { c with deferredSends := texts }
        ([.sendInLoop text, .drainDeferredSends] ++ rest) fired := by
  apply Ledger.ext <;> try rfl
  all_goals
    simp only [books, List.cons_append, List.nil_append, List.filterMap_cons, Code.waits,
      Code.opening, hdeferred, List.map_cons, coe_cons_eq]
    abel

theorem refines_startNext {frames : List (Numbered (FileFrame Callback))}
    (hqueued : c.queuedFileFrames = frame :: frames) :
    books files c (.startNextQueuedFileFrame :: rest) fired =
      books files { c with queuedFileFrames := frames } ([.startFileFrame frame] ++ rest) fired := by
  apply Ledger.ext <;> try rfl
  all_goals
    simp only [books, List.cons_append, List.nil_append, List.filterMap_cons, Code.waits,
      Code.opening, hqueued, List.map_cons, coe_cons_eq]
    abel

theorem current_idle (hopening : stack.filterMap Code.opening = [])
    (hidle : c.activeFileSend = none) : current files c stack = none := by
  unfold current
  rw [hopening, hidle]
  simp

theorem buffered_append {message first later buffer : Bytes} (hmessage : message = first ++ later)
    (hfirst : first = [] ∨ buffer = []) : buffer ++ message = first ++ (buffer ++ later) := by
  rcases hfirst with rfl | rfl <;> rw [hmessage] <;> rfl

/-- The books after `sendInLoop` follow from the books before by steps of the ledger. -/
theorem refines_text {text : Numbered (TextSend Callback)} {code : List (Code Callback)}
    (hsound : Sound (Output.bytes files) unsent (books files c (.sendInLoop text :: rest) fired))
    (hstack : Stacked c (.sendInLoop text :: rest)) (h : Sends c (textUnit text) text c' code) :
    Entries files foreign unsent client (books files c (.sendInLoop text :: rest) fired, owner)
      (books files c' (code ++ rest) fired, owner) := by
  have hcurrent : c.state ≠ .disconnected → c.activeFileSend = none →
      current files c rest = none := fun hstate hidle =>
    current_idle (no_opening_of_clear (hstack.clear.resolve_left hstate) rfl) hidle
  rw [books_waits rfl] at hsound ⊢
  cases h with
  | closed hstate =>
    exact .head (.drop (textUnit text) _ rfl) (.single (.lose (textUnit text) _ rfl))
  | deferred hstate hactive => exact steps_to .refl (books_deferred text).symm
  | broke hstate hidle htls hwriting hempty =>
    refine steps_to (.head (.drop (textUnit text) _ rfl)
      (.single (.lose (textUnit text) _ rfl))) ?_
    apply Ledger.ext <;> try rfl
    exact hcurrent hstate hidle
  | gone first later writing hstate hidle _ hmessage hfirst hcode =>
    have hsplit := buffered_append hmessage hfirst
    rcases hcode with rfl | rfl <;>
      exact .head (.startWhole (textUnit text) _ rfl (hcurrent hstate hidle)) (.head
        (.write first _ hsplit) (.single (.lose (textUnit text) _ rfl)))
  | kept first later writing hstate hidle _ hmessage hfirst hcode =>
    have hsplit := buffered_append hmessage hfirst
    have hkept : (books files c rest fired).live + {textUnit text} =
        (books files { c with pendingSendCompletions := c.pendingSendCompletions ++ [text] }
          rest fired).live := by
      simp only [books, List.map_append, List.map_singleton, coe_concat_eq]
      abel
    rcases hcode with rfl | rfl <;>
    · refine steps_to (.head (.startWhole (textUnit text) _ rfl (hcurrent hstate hidle))
        (.single (.write first _ hsplit))) ?_
      apply Ledger.ext <;> try rfl
      exact hkept
  | sent hstate hidle hunbroken hempty =>
    refine steps_to (steps_handOver hsound rfl rfl (hcurrent hstate hidle) hempty) ?_
    apply Ledger.ext <;> try rfl
    case requested =>
      simp only [books, queued, List.filterMap_append, List.filterMap_cons, Functor.request,
        List.filterMap_nil, List.append_nil, List.nil_append]
    case buffered => simp [books, TcpConnection.taken, hempty]
    case ready =>
      simp only [books, queued, List.filterMap_append, List.filterMap_cons, Functor.ready,
        List.filterMap_nil, coe_concat_eq, List.nil_append]
      abel

/-- The header of a frame goes the way of a text, and the frame is about to be activated. -/
theorem refines_header {code : List (Code Callback)}
    (hstack : Stacked c (.sendHeader frame :: rest)) (htidy : Tidy c)
    (h : Sends c (frameUnit frame) ⟨frame.id, ⟨frame.request.header, none⟩⟩ c' code) :
    Entries files foreign unsent client (books files c (.sendHeader frame :: rest) fired, owner)
      (books files c' (code ++ [.activate frame] ++ rest) fired, owner) := by
  obtain ⟨hidle, hstate⟩ : c.activeFileSend = none ∧ c.state ≠ .disconnected :=
    hstack.poised _ rfl
  have hopening := no_opening_of_clear (hstack.clear.resolve_left hstate) rfl
  have hcurrent : current files c rest = none := current_idle hopening hidle
  have hlive : (books files c rest fired).live + {frameUnit frame} =
      (books files c (.activate frame :: rest) fired).live := by
    simp only [books, List.filterMap_cons, Code.waits, Code.opening, coe_cons_eq, List.map_cons]
    abel
  rw [books_waits rfl]
  cases h with
  | closed hclosed => exact absurd hclosed hstate
  | deferred _ hactive => simp [hidle] at hactive
  | broke =>
    refine steps_to (.single (.drop (frameUnit frame) _ rfl)) ?_
    apply Ledger.ext <;> try rfl
    · exact hcurrent
    · exact hlive
  | gone first later writing _ _ hunbroken hmessage hfirst hcode =>
    have hbuffered : c.outputBuffer ++ frame.request.header = first ++ (c.outputBuffer ++ later) :=
      buffered_append hmessage hfirst
    have hbegun : current files c (.activate frame :: rest) = some (frameUnit frame,
        fileBytes files frame.request.path frame.request.offset frame.request.byteCount) := by
      simp [current, htidy.unbroken hunbroken, Code.opening]
    rcases hcode with rfl | rfl <;>
    · refine steps_to (.head (.startPart (frameUnit frame) _ frame.request.header
        (fileBytes files frame.request.path frame.request.offset frame.request.byteCount) rfl
        hcurrent rfl) (.single (.write first _ hbuffered))) ?_
      apply Ledger.ext <;> try rfl
      case current => exact hbegun.symm
      case live => exact hlive
  | kept _ _ _ _ _ _ _ _ _ hcompletion | sent _ _ _ _ hcompletion => simp at hcompletion

theorem opening_of_active (hstack : Stacked c stack) (hactive : c.activeFileSend = some file) :
    stack.filterMap Code.opening = [] := by
  have halone := hstack.alone
  rw [hactive] at halone
  simp only [Option.toList_some, List.length_singleton] at halone
  exact List.length_eq_zero_iff.mp (by omega)

theorem fileBytes_append (files : Bytes → Bytes) (path : Bytes) {offset remaining : Nat}
    (hle : count ≤ remaining) :
    fileBytes files path offset remaining =
      fileBytes files path offset count ++
        fileBytes files path (offset + count) (remaining - count) := by
  unfold fileBytes
  rw [← List.drop_drop, ← List.take_add, Nat.add_sub_cancel' hle]

@[simp] theorem fileBytes_zero (files : Bytes → Bytes) (path : Bytes) (offset : Nat) :
    fileBytes files path offset 0 = [] := by
  simp [fileBytes]

theorem current_active (files : Bytes → Bytes) (hstack : Stacked c stack)
    (hactive : c.activeFileSend = some file) (hbroken : c.broken = false) :
    current files c stack = some (frameUnit file.frame,
      fileBytes files file.frame.request.path file.offset file.remaining) := by
  unfold current
  rw [opening_of_active hstack hactive, hactive, hbroken]
  rfl

theorem refines_activate (hstack : Stacked c (.activate frame :: rest)) :
    books files c (.activate frame :: rest) fired =
      books files (c.activate frame) ([.flushFileSend] ++ rest) fired := by
  have halone := hstack.alone
  have hopening : (Code.activate frame :: rest).filterMap Code.opening =
      frame :: rest.filterMap Code.opening := rfl
  rw [hopening, List.length_cons] at halone
  have hrest : rest.filterMap Code.opening = [] := List.length_eq_zero_iff.mp (by omega)
  have hidle : c.activeFileSend = none := by
    cases hactive : c.activeFileSend with
    | none => rfl
    | some file =>
      rw [hactive, Option.toList_some, List.length_singleton] at halone
      omega
  apply Ledger.ext <;> try rfl
  case current =>
    have hflush : ([Code.flushFileSend] ++ rest).filterMap Code.opening = [] := hrest
    change current files c (.activate frame :: rest) =
      current files (c.activate frame) ([.flushFileSend] ++ rest)
    unfold current
    rw [hopening, hflush]
    rfl
  case live =>
    simp only [books, List.filterMap_cons, Code.waits, Code.opening, List.map_cons, coe_cons_eq,
      hrest, TcpConnection.activate, hidle, Option.toList_none, Option.toList_some, List.map_nil,
      List.singleton_append]
    abel

theorem refines_fileBytes (hstack : Stacked c (.sendFileBytes :: rest))
    (hactive : c.activeFileSend = some file) (hbroken : c.broken = false)
    (hle : count ≤ file.remaining) :
    Entries files foreign unsent client
      (books files c (.sendFileBytes :: rest) fired, owner)
      (books files
        { c with
          emitted := c.emitted ++ fileBytes files file.frame.request.path file.offset count
          activeFileSend := some { file with
            offset := file.offset + count
            remaining := file.remaining - count } }
        ([.sendFileBytes] ++ rest) fired, owner) := by
  have hempty : c.outputBuffer = [] := (hstack.poised _ rfl).1
  have hopening := opening_of_active hstack hactive
  have hcurrent := current_active files hstack hactive hbroken
  rw [fileBytes_append files _ hle] at hcurrent
  refine steps_to (.single (.writeCurrent (frameUnit file.frame) _ _ hempty hcurrent)) ?_
  apply Ledger.ext <;> try rfl
  case current =>
    simp only [books, current, hbroken]
    rw [List.singleton_append, hopening]
    rfl
  case live => simp only [books, hactive, Option.toList_some, List.map_singleton,
      List.singleton_append]

/-- The end of a frame: its unit is complete, and its completion is ready. -/
theorem refines_finish
    (hunsent : ∀ frame : FileFrame Callback, frame.byteCount = 0 → unsent (.frame frame))
    (hsound : Sound (Output.bytes files) unsent
      (books files c (.finishActiveFileSend :: rest) fired))
    (hstack : Stacked c (.finishActiveFileSend :: rest)) (htidy : Tidy c)
    (hactive : c.activeFileSend = some file) :
    Entries files foreign unsent client
      (books files c (.finishActiveFileSend :: rest) fired, owner)
      (books files { c with activeFileSend := none }
        ([.drainDeferredSends, .completion (frameUnit file.frame), .startNextQueuedFileFrame,
          .settleWriting] ++ rest) fired, owner) := by
  obtain ⟨hempty, -, hdone⟩ := hstack.poised _ rfl
  have hremaining := hdone file hactive
  have hopening := opening_of_active hstack hactive
  have hlive : (books files c (.finishActiveFileSend :: rest) fired).live =
      (books files { c with activeFileSend := none } rest fired).live +
        {frameUnit file.frame} := by
    simp only [books, List.filterMap_cons, Code.waits, Code.opening, hactive, Option.toList_some,
      Option.toList_none, List.map_nil, List.map_singleton, Multiset.coe_singleton, Multiset.coe_nil]
    abel
  have hready : (books files c (.finishActiveFileSend :: rest) fired).ready +
        {frameUnit file.frame} =
      (books files { c with activeFileSend := none }
        ([.drainDeferredSends, .completion (frameUnit file.frame), .startNextQueuedFileFrame,
          .settleWriting] ++ rest) fired).ready := (books_completion files c rest fired _).symm
  have hidle : current files { c with activeFileSend := none }
      ([.drainDeferredSends, .completion (frameUnit file.frame), .startNextQueuedFileFrame,
        .settleWriting] ++ rest) = none := current_idle hopening rfl
  by_cases hbroken : c.broken = true
  · obtain ⟨hdropped, hcount⟩ := htidy.active file hactive hbroken
    have hzero : unsent (frameUnit file.frame).request :=
      hunsent _ (hcount.symm.trans hremaining)
    refine steps_to (.single (.release (frameUnit file.frame) _ hlive
      (Or.inr ⟨Multiset.mem_coe.mpr hdropped, hzero⟩))) ?_
    apply Ledger.ext <;> try rfl
    case current =>
      refine Eq.trans ?_ hidle.symm
      simp [books, current, hbroken]
    case ready => exact hready
  · have hcurrent := current_active files hstack hactive (by simpa using hbroken)
    rw [hremaining, fileBytes_zero] at hcurrent
    refine steps_to (steps_finish hsound hlive hcurrent hempty) ?_
    apply Ledger.ext <;> try rfl
    case current => exact hidle.symm
    case ready => exact hready

theorem refines_openFailed (hunsent : unsent (.frame frame.request)) :
    Entries files foreign unsent client (books files c (.startFileFrame frame :: rest) fired, owner)
      (books files (c.drop (frameUnit frame))
        ([.completion (frameUnit frame), .forceClose] ++ rest) fired, owner) := by
  rw [books_waits rfl]
  refine steps_to (.head (.drop (frameUnit frame) _ rfl) (.single (.release
    (frameUnit frame) _ rfl (Or.inr ⟨?_, hunsent⟩)))) ?_
  · exact Multiset.mem_add.mpr (Or.inr (Multiset.mem_singleton_self _))
  · apply Ledger.ext <;> try rfl
    exact (books_completion files c _ fired (frameUnit frame)).symm

theorem refines_emit (count : Nat) :
    Entries files foreign unsent client
      (books files c stack fired, owner) (books files (c.emit count) stack fired, owner) :=
  .single (.write (c.outputBuffer.take count) _ (List.take_append_drop count _).symm)

/-- The buffer is empty: every text that was in it is complete. -/
theorem refines_flushed (hempty : c.outputBuffer = [])
    (hpending : ∀ text ∈ c.pendingSendCompletions, textUnit text ∈ c.started)
    (hsound : Sound (Output.bytes files) unsent (books files c stack fired)) :
    Entries files foreign unsent client
      (books files c stack fired, owner)
      (books files c.finishOutputCompletions stack fired, owner) := by
  have hother : ∀ (text : Numbered (TextSend Callback)) rest,
      current files c stack ≠ some (textUnit text, rest) := by
    intro text rest hcurrent
    unfold current at hcurrent
    split at hcurrent
    · cases hcurrent
    · split at hcurrent
      · injection hcurrent with hpair
        injection hpair with hunit
        injection hunit with _ houtput
        cases houtput
      · obtain ⟨file, -, hpair⟩ := Option.map_eq_some_iff.mp hcurrent
        injection hpair with hunit
        injection hunit with _ houtput
        cases houtput
  have hhanded : ∀ unit ∈ c.pendingSendCompletions.map textUnit,
      Handed (Output.bytes files) (books files c stack fired) unit := by
    intro unit hunit
    obtain ⟨text, htext, rfl⟩ := List.mem_map.mp hunit
    exact handed_of_flushed hsound.written hempty (hpending text htext) (hother text)
  have hlive : (books files c stack fired).live =
      (books files { c with pendingSendCompletions := [] } stack fired).live +
        (c.pendingSendCompletions.map textUnit : Multiset (Numbered (Output Callback))) := by
    simp only [books, List.map_nil, Multiset.coe_nil]
    abel
  refine steps_to (steps_releaseAll hsound hlive hhanded) ?_
  have hready : (c.pendingSendCompletions.map fun text =>
      Functor.completion (textUnit text)).filterMap Functor.ready =
        c.pendingSendCompletions.map textUnit := by
    rw [List.filterMap_map]
    exact congrFun List.filterMap_eq_map _
  have hrequest : (c.pendingSendCompletions.map fun text =>
      Functor.completion (textUnit text)).filterMap Functor.request = [] := by
    rw [List.filterMap_map]
    exact List.filterMap_eq_nil_iff.mpr fun _ _ => rfl
  apply Ledger.ext <;> try rfl
  case requested =>
    simp only [books, TcpConnection.finishOutputCompletions, List.filterMap_append, hrequest,
      List.append_nil]
  case ready =>
    simp only [books, TcpConnection.finishOutputCompletions, List.filterMap_append, hready,
      ← Multiset.coe_add]
    abel

/-! ### Calls -/

def asking (ledger : Ledger (Output Callback) UInt8) (output : Option (Output Callback)) :
    Ledger (Output Callback) UInt8 :=
  { ledger with requested := ledger.requested + (output.toList : Multiset (Output Callback)) }

theorem asking_none (ledger : Ledger (Output Callback) UInt8) : asking ledger none = ledger := by
  apply Ledger.ext <;> try rfl
  simp [asking]

theorem refines_refuse (output : Option (Output Callback)) :
    Entries files foreign unsent client
      (asking (books files c stack fired) output, owner) (books files c stack fired, owner) := by
  cases output with
  | none => exact steps_to .refl (asking_none _)
  | some output => exact .single (.refuse output _ rfl)

theorem refines_accept (output : Output Callback) :
    Entries files foreign unsent client
      (asking (books files c stack fired) (some output), owner)
      (queued (books files { c with accepted := c.accepted ++ [⟨c.accepted.length, output⟩] } stack
        fired) ⟨c.accepted.length, output⟩, owner) :=
  .single (.accept output _ rfl)

theorem refines_acceptText (message : Bytes) (completion : Option Callback) :
    Entries files foreign unsent client
      (asking (books files c stack fired) (some (.text ⟨message, completion⟩)), owner)
      (books files (c.acceptText message completion).1
        ((c.acceptText message completion).2 ++ stack) fired, owner) :=
  steps_to (refines_accept _) (books_waits rfl).symm

theorem refines_acceptFrame (frame : FileFrame Callback) :
    Entries files foreign unsent client
      (asking (books files c stack fired) (some (.frame frame)), owner)
      (books files (c.sendFileFrameInLoop frame).1
        ((c.sendFileFrameInLoop frame).2 ++ stack) fired, owner) := by
  refine steps_to (refines_accept _) ?_
  unfold TcpConnection.sendFileFrameInLoop
  dsimp only
  split
  · exact (books_queuedFrame _ ⟨c.accepted.length, frame⟩).symm
  · exact (books_waits rfl).symm

theorem books_functor {functor : Functor Callback} (hrequest : functor.request = none)
    (hready : functor.ready = none) (c : TcpConnection Callback) :
    books files { c with functors := c.functors ++ [functor] } stack fired =
      books files c stack fired := by
  apply Ledger.ext <;> try rfl
  case requested =>
    simp only [books, List.filterMap_append, List.filterMap_cons, hrequest, List.filterMap_nil,
      List.append_nil]
  case ready =>
    simp only [books, List.filterMap_append, List.filterMap_cons, hready, List.filterMap_nil,
      List.append_nil]

theorem books_forceClose :
    books files c.forceClose stack fired = books files c stack fired := by
  unfold TcpConnection.forceClose
  split
  · exact books_functor rfl rfl { c with state := .disconnecting }
  · rfl

/-- A call on the thread of the loop is accepted or refused at once. -/
theorem refines_call (call : Call Callback) :
    Entries files foreign unsent client
      (asking (books files c stack fired) call.output, owner)
      (books files (c.call call).1 ((c.call call).2 ++ stack) fired, owner) := by
  cases call with
  | send message completion =>
    unfold TcpConnection.call
    dsimp only
    split
    · exact refines_acceptText message completion
    · exact refines_refuse _
  | sendFileFrame header path offset byteCount completion =>
    unfold TcpConnection.call
    dsimp only
    split
    · exact refines_acceptFrame _
    · exact refines_refuse _
  | shutdown =>
    refine steps_to (refines_refuse _) ?_
    unfold TcpConnection.call
    dsimp only
    split <;> rfl
  | forceClose => exact steps_to (refines_refuse _) books_forceClose.symm

/-- A call on another thread leaves its request to a functor. -/
theorem refines_post (call : Call Callback) :
    Entries files foreign unsent client
      (asking (books files c stack fired) call.output, owner)
      (books files (c.post call) stack fired, owner) := by
  have hqueue : ∀ functor : Functor Callback, functor.ready = none →
      asking (books files c stack fired) functor.request =
        books files { c with functors := c.functors ++ [functor] } stack fired := by
    intro functor hready
    apply Ledger.ext <;> try rfl
    case requested =>
      cases hrequest : functor.request <;>
        simp only [asking, books, List.filterMap_append, List.filterMap_cons, hrequest,
          List.filterMap_nil, List.append_nil, Option.toList_none, Option.toList_some,
          Multiset.coe_nil, Multiset.coe_singleton, ← Multiset.coe_add, add_zero, add_assoc]
    case ready =>
      simp only [asking, books, List.filterMap_append, List.filterMap_cons, hready,
        List.filterMap_nil, List.append_nil]
  cases call with
  | send message completion =>
    unfold TcpConnection.post
    dsimp only
    split
    · exact steps_to .refl (hqueue (.sendInLoop message completion) rfl)
    · exact refines_refuse _
  | sendFileFrame header path offset byteCount completion =>
    unfold TcpConnection.post
    dsimp only
    split
    · exact steps_to .refl
        (hqueue (.sendFileFrameInLoop header path offset byteCount completion) rfl)
    · exact refines_refuse _
  | shutdown =>
    refine steps_to (refines_refuse _) ?_
    unfold TcpConnection.post
    dsimp only
    split
    · exact (books_functor rfl rfl { c with state := .disconnecting }).symm
    · rfl
  | forceClose => exact steps_to (refines_refuse _) books_forceClose.symm

theorem refines_postAll (calls : List (Call Callback)) :
    Entries files foreign unsent client
      ({ books files c stack fired with
          requested := (books files c stack fired).requested +
            (calls.filterMap Call.output : Multiset (Output Callback)) }, owner)
      (books files (calls.foldl TcpConnection.post c) stack fired, owner) := by
  induction calls generalizing c with
  | nil =>
    refine steps_to .refl ?_
    apply Ledger.ext <;> try rfl
    simp
  | cons call calls ih =>
    have hsplit : ({ books files c stack fired with
        requested := (books files c stack fired).requested +
          ((call :: calls).filterMap Call.output : Multiset (Output Callback)) } :
            Ledger (Output Callback) UInt8) =
        { asking (books files c stack fired) call.output with
          requested := (asking (books files c stack fired) call.output).requested +
            (calls.filterMap Call.output : Multiset (Output Callback)) } := by
      apply Ledger.ext <;> try rfl
      cases houtput : call.output with
      | none => simp [asking, houtput]
      | some output =>
        simp only [asking, List.filterMap_cons, houtput, Option.toList_some, coe_cons_eq]
        abel
    rw [hsplit]
    exact (steps_frame _ (refines_post call)).trans ih

/-- A functor that the loop runs. -/
theorem refines_functor {functor : Functor Callback} {functors : List (Functor Callback)}
    (hfunctors : c.functors = functor :: functors) :
    Entries files foreign unsent client
      (books files c stack fired, owner)
      (books files ({ c with functors := functors }.runFunctor functor).1
        (({ c with functors := functors }.runFunctor functor).2 ++ stack) fired, owner) := by
  have hrequest : functor.ready = none → books files c stack fired =
      asking (books files { c with functors := functors } stack fired) functor.request := by
    intro hready
    apply Ledger.ext <;> try rfl
    case requested =>
      cases hrequest : functor.request with
      | none =>
        simp only [books, asking, hfunctors, List.filterMap_cons, hrequest, Option.toList_none,
          Multiset.coe_nil, add_zero]
      | some output =>
        simp only [books, asking, hfunctors, List.filterMap_cons, hrequest, Option.toList_some,
          coe_cons_eq]
        abel
    case ready =>
      simp only [books, asking, hfunctors, List.filterMap_cons, hready]
  cases functor with
  | sendInLoop message completion =>
    rw [hrequest rfl]
    unfold TcpConnection.runFunctor
    dsimp only
    split
    · exact refines_refuse _
    · exact refines_acceptText message completion
  | sendFileFrameInLoop header path offset byteCount completion =>
    rw [hrequest rfl]
    unfold TcpConnection.runFunctor
    dsimp only
    split
    · exact refines_refuse _
    · exact refines_acceptFrame _
  | shutdownInLoop =>
    rw [hrequest rfl]
    exact refines_refuse _
  | forceCloseInLoop =>
    rw [hrequest rfl]
    refine steps_to (refines_refuse _) ?_
    unfold TcpConnection.runFunctor
    dsimp only
    split <;> rfl
  | completion unit =>
    refine steps_to .refl ?_
    apply Ledger.ext <;> try rfl
    case requested =>
      simp only [books, hfunctors, List.filterMap_cons, Functor.request, TcpConnection.runFunctor,
        List.singleton_append, List.flatMap_cons, Code.requests, List.nil_append]
    case ready =>
      simp only [books, hfunctors, List.filterMap_cons, Functor.ready, TcpConnection.runFunctor,
        List.singleton_append, Code.ready, coe_cons_eq]
      abel

theorem takes_iff {limit : Nat} :
    c.takes count limit = true ↔ (0 < count ∧ count ≤ limit) ∧ c.broken = false := by
  simp [TcpConnection.takes]

theorem refines_callback {calls : List (Call Callback)}
    (hforeign : ∀ output ∈ calls.filterMap Call.output, foreign output) :
    Entries files foreign unsent client
      (books files c rest fired, owner) (books files c ([.user calls] ++ rest) fired, owner) := by
  refine steps_to (steps_requestAll hforeign) ?_
  apply Ledger.ext <;> try rfl
  simp only [books, List.singleton_append, List.flatMap_cons, Code.requests, ← Multiset.coe_add]
  abel

theorem refines_user (call : Call Callback) (calls : List (Call Callback)) :
    Entries files foreign unsent client
      (books files c (.user (call :: calls) :: rest) fired, owner)
      (books files (c.call call).1 ((c.call call).2 ++ [.user calls] ++ rest) fired, owner) := by
  have hasking : books files c (.user (call :: calls) :: rest) fired =
      asking (books files c (.user calls :: rest) fired) call.output := by
    apply Ledger.ext <;> try rfl
    cases houtput : call.output with
    | none =>
      simp only [books, asking, List.flatMap_cons, Code.requests, List.filterMap_cons, houtput,
        Option.toList_none, Multiset.coe_nil, add_zero]
    | some output =>
      simp only [books, asking, List.flatMap_cons, Code.requests, List.filterMap_cons, houtput,
        Option.toList_some, List.cons_append, coe_cons_eq]
      abel
  rw [hasking, List.append_assoc]
  exact refines_call call

end Refinement

end ChatRoom.Net
