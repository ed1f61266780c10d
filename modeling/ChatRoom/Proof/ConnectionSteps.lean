import ChatRoom.Proof.OutputBooks

/-!
# What a piece of code of a connection can do

One relation for `exec`, with every guard, and one each for the calls and the functors. What the
other modules say about the code of a connection is a case analysis of these.
-/

namespace ChatRoom.Net

open OutputLedger

variable {Callback Owner Outcome Task : Type}

/-- The code that goes on with the output. -/
inductive Resumes (c : TcpConnection Callback) : Code Callback → Prop where
  | file : c.activeFileSend.isSome → Resumes c .flushFileSend
  | tls : c.tls = true → Resumes c .flushTlsOutput
  | plain : c.tls = false → Resumes c .handlePlainWrite

/-- The steps that have nothing to do. -/
def Code.Idles (c : TcpConnection Callback) : Code Callback → Input Callback Outcome Task → Prop
  | .flushFileSend, .run => c.activeFileSend = none ∨ c.state = .disconnected
  | .outputFlushed, .run => c.state = .disconnected ∨ c.outputBuffer ≠ []
  | .sendFileBytes, .run => c.activeFileSend = none ∨ c.tls = true ∧ c.tlsHandshakeComplete = false
  | .finishActiveFileSend, .run => c.activeFileSend = none
  | .settleWriting, .run => c.activeFileSend ≠ none ∨ c.outputBuffer ≠ []
  | .forceClose, .run => c.state = .connecting ∨ c.state = .disconnected
  | .flushTlsOutput, .run =>
    c.tls = false ∨ c.tlsHandshakeComplete = false ∨ c.state = .disconnected
  | .handlePlainWrite, .run => c.writing = false
  | .handlePlainWrite, input => input = .wantWrite ∨ input = .interrupted ∨ input = .failed
  | .handlePlainRead, input => input = .wantRead ∨ input = .interrupted
  | .handleTlsRead _, .run => c.tls = false ∨ c.tlsHandshakeComplete = false
  | .handleTlsRead received, input => input = .wantRead ∧ (received && c.connected) = false
  | .driveTlsHandshake, .run =>
    c.tls = false ∨ c.tlsHandshakeComplete = true ∨ c.state = .disconnected
  | .handleClose, .run => c.state = .disconnected
  | .readPending, input => ∃ more, input = .sslPending more
  | .startNextQueuedFileFrame, .run | .afterRead, .run | .afterBlockedRead, .run
  | .user [], .run => True
  | _, _ => False

/-- The steps that end in `handleClose`. -/
def Code.Fails : Code Callback → Input Callback Outcome Task → Prop
  | .sendFileBytes, .failed | .flushTlsOutput, .failed | .handlePlainRead, .endOfStream
  | .handlePlainRead, .failed | .handleTlsRead _, .endOfStream | .handleTlsRead _, .failed
  | .driveTlsHandshake, .endOfStream | .driveTlsHandshake, .interrupted
  | .driveTlsHandshake, .failed => True
  | _, _ => False

/-- The steps that leave the fields of the connection alone. -/
inductive Leads (c : TcpConnection Callback) :
    Code Callback → Input Callback Outcome Task → List (Code Callback) → Prop where
  | idles {code input} (h : code.Idles c input) : Leads c code input []
  | fails {code input} (h : code.Fails input) : Leads c code input [.handleClose]
  | drained (hdrained : c.activeFileSend = none → c.deferredSends = []) :
      Leads c .drainDeferredSends .run []
  | opened (frame : Numbered (FileFrame Callback)) (hopen : c.state ≠ .disconnected) :
      Leads c (.startFileFrame frame) .opened [.sendHeader frame]
  | file (hactive : c.activeFileSend.isSome) (hopen : c.state ≠ .disconnected)
      (hempty : c.outputBuffer = []) : Leads c .flushFileSend .run [.sendFileBytes]
  | flushTls (htls : c.tls = true) (hrest : c.outputBuffer ≠ []) :
      Leads c .flushFileSend .run [.flushTlsOutput, .outputFlushed]
  | flushPlain (htls : c.tls = false) (hrest : c.outputBuffer ≠ []) :
      Leads c .flushFileSend .run [.handlePlainWrite, .outputFlushed]
  | flushed (hopen : c.state ≠ .disconnected) (hempty : c.outputBuffer = []) :
      Leads c .outputFlushed .run [.sendFileBytes]
  | fileDone (file : PendingFileSend Callback) (hactive : c.activeFileSend = some file)
      (hdone : file.remaining = 0) : Leads c .sendFileBytes .run [.finishActiveFileSend]
  | fileAgain (htls : c.tls = false) : Leads c .sendFileBytes .interrupted [.sendFileBytes]
  | flushAgain (htls : c.tls = true) (hrest : c.outputBuffer ≠ []) :
      Leads c .flushTlsOutput .interrupted [.flushTlsOutput]
  | plainMessage : Leads c .handlePlainRead .received [.messageCallback]
  | readAgain (received : Bool) : Leads c (.handleTlsRead received) .interrupted [.handleTlsRead received]
  | readOn (received : Bool) (hready : c.tls = true ∧ c.tlsHandshakeComplete = true) :
      Leads c (.handleTlsRead received) .received [.handleTlsRead true]
  | message (hconnected : c.connected = true) :
      Leads c (.handleTlsRead true) .wantRead [.messageCallback]
  | resumes {code} (hresumes : Resumes c code) : Leads c .afterBlockedRead .run [code]
  | established : c.outputBuffer = [] → Leads c .afterEstablished .run [.readPending]
  | establishedOutput : c.outputBuffer ≠ [] →
      Leads c .afterEstablished .run [.flushTlsOutput, .readPending]
  | pending : Leads c .readPending (.sslPending true) [.handleTlsRead false]
  | callback {code} (hcode : code = .messageCallback ∨ code = .connectionCallback)
      (calls : List (Call Callback)) : Leads c code (.calls calls) [.user calls]

namespace TcpConnection

def flagged (c : TcpConnection Callback)
    (writing writeBlocked readBlocked handshake established : Bool) : TcpConnection Callback :=
  { c with
    writing
    tlsWriteBlockedOnRead := writeBlocked
    tlsReadBlockedOnWrite := readBlocked
    tlsHandshakeComplete := handshake
    applicationEstablished := established }

end TcpConnection

/-- The steps that change nothing but flags. -/
inductive Sets (c : TcpConnection Callback) : Code Callback → Input Callback Outcome Task →
    TcpConnection Callback → List (Code Callback) → Prop where
  | settles (hidle : c.activeFileSend = none) (hempty : c.outputBuffer = []) :
      Sets c .settleWriting .run { c with writing := false } []
  | fileBlocked (hbroken : c.broken = false) (hactive : c.activeFileSend.isSome) :
      Sets c .sendFileBytes .wantWrite { c with writing := true } []
  | fileReads (htls : c.tls = true) (hactive : c.activeFileSend.isSome) :
      Sets c .sendFileBytes .wantRead { c with tlsWriteBlockedOnRead := true } []
  | flushBlocked (htls : c.tls = true) (hrest : c.outputBuffer ≠ []) :
      Sets c .flushTlsOutput .wantWrite { c with writing := true } []
  | flushReads (htls : c.tls = true) (hrest : c.outputBuffer ≠ []) :
      Sets c .flushTlsOutput .wantRead { c with tlsWriteBlockedOnRead := true, writing := false } []
  | readBlocked (received : Bool) (htls : c.tls = true) :
      Sets c (.handleTlsRead received) .wantWrite
        { c with tlsReadBlockedOnWrite := true, writing := true }
        (if received && c.connected then [.messageCallback] else [])
  | readDone {code} (hresumes : Resumes c code) :
      Sets c .afterRead .run { c with tlsWriteBlockedOnRead := false } [code]
  | greets (htls : c.tls = true) (hopen : c.state ≠ .disconnected)
      (hnew : c.applicationEstablished = false) (writing : Bool) :
      Sets c .driveTlsHandshake .handshaken (c.flagged writing false false true true)
        [.connectionCallback, .afterEstablished]
  | handshaken (htls : c.tls = true) (hknown : c.applicationEstablished = true) (writing : Bool) :
      Sets c .driveTlsHandshake .handshaken (c.flagged writing false false true true)
        [.afterEstablished]
  | handshakeReads (htls : c.tls = true) (writing : Bool) :
      Sets c .driveTlsHandshake .wantRead { c with writing } []
  | handshakeBlocked (htls : c.tls = true) :
      Sets c .driveTlsHandshake .wantWrite { c with writing := true } []

/-- **What a step does.** One constructor for each way in which the source goes on; the steps that
touch the output say what becomes of it. -/
inductive Does (files : Bytes → Bytes) (c : TcpConnection Callback) :
    Code Callback → Input Callback Outcome Task → TcpConnection Callback → List (Code Callback) →
      Prop where
  | leads {code input more} (h : Leads c code input more) : Does files c code input c more
  | sets {code input c' more} (h : Sets c code input c' more) : Does files c code input c' more
  | text {input c' more} (text : Numbered (TextSend Callback))
      (h : Sends c (textUnit text) text c' more) (hbroken : input ≠ .fault → c'.broken = c.broken) :
      Does files c (.sendInLoop text) input c' more
  | header {input c' more} (frame : Numbered (FileFrame Callback))
      (h : Sends c (frameUnit frame) ⟨frame.id, ⟨frame.request.header, none⟩⟩ c' more)
      (hbroken : input ≠ .fault → c'.broken = c.broken) :
      Does files c (.sendHeader frame) input c' (more ++ [.activate frame])
  | drops (frame : Numbered (FileFrame Callback)) (hclosed : c.state = .disconnected) :
      Does files c (.startFileFrame frame) .run (c.drop (frameUnit frame)) []
  | openFails (frame : Numbered (FileFrame Callback)) (hopen : c.state ≠ .disconnected) :
      Does files c (.startFileFrame frame) .openFailed (c.drop (frameUnit frame))
        [.completion (frameUnit frame), .forceClose]
  | activates (frame : Numbered (FileFrame Callback)) :
      Does files c (.activate frame) .run (c.activate frame) [.flushFileSend]
  | fileBytes (file : PendingFileSend Callback) (count : Nat)
      (hactive : c.activeFileSend = some file)
      (htakes : c.takes count (min file.remaining c.sendLimit) = true)
      (hfile : file.offset + count ≤ (files file.frame.request.path).length) :
      Does files c .sendFileBytes (.wrote count)
        { c with
          emitted := c.emitted ++ Net.fileBytes files file.frame.request.path file.offset count
          activeFileSend := some { file with
            offset := file.offset + count
            remaining := file.remaining - count } } [.sendFileBytes]
  | finishes (file : PendingFileSend Callback) (hactive : c.activeFileSend = some file) :
      Does files c .finishActiveFileSend .run { c with activeFileSend := none }
        [.drainDeferredSends, .completion (frameUnit file.frame), .startNextQueuedFileFrame,
          .settleWriting]
  | drains (text : Numbered (TextSend Callback)) (rest : List (Numbered (TextSend Callback)))
      (hidle : c.activeFileSend = none) (hdeferred : c.deferredSends = text :: rest) :
      Does files c .drainDeferredSends .run { c with deferredSends := rest }
        [.sendInLoop text, .drainDeferredSends]
  | starts (frame : Numbered (FileFrame Callback)) (rest : List (Numbered (FileFrame Callback)))
      (hidle : c.activeFileSend = none) (hqueued : c.queuedFileFrames = frame :: rest)
      (hopen : c.state ≠ .disconnected) :
      Does files c .startNextQueuedFileFrame .run { c with queuedFileFrames := rest }
        [.startFileFrame frame]
  | flushed (htls : c.tls = true) (hhandshake : c.tlsHandshakeComplete = true)
      (hopen : c.state ≠ .disconnected) (hempty : c.outputBuffer = []) :
      Does files c .flushTlsOutput .run
        { c with
            tlsWriteBlockedOnRead := false
            writing := c.writing && c.tlsReadBlockedOnWrite }.finishOutputCompletions []
  | flushes (count : Nat) (htls : c.tls = true)
      (htakes : c.takes count c.outputBuffer.length = true) :
      Does files c .flushTlsOutput (.wrote count) (c.emit count) [.flushTlsOutput]
  | writes (count : Nat) (hwriting : c.writing = true)
      (htakes : c.takes count c.outputBuffer.length = true)
      (hrest : (c.emit count).outputBuffer ≠ []) :
      Does files c .handlePlainWrite (.wrote count) (c.emit count) []
  | writesAll (count : Nat) (hwriting : c.writing = true)
      (htakes : c.takes count c.outputBuffer.length = true)
      (hempty : (c.emit count).outputBuffer = []) :
      Does files c .handlePlainWrite (.wrote count)
        { c.emit count with writing := false }.finishOutputCompletions []
  | closes (hopen : c.state ≠ .disconnected) :
      Does files c .handleClose .run { c with state := .disconnected, writing := false }
        (if c.applicationEstablished then [.connectionCallback] else [])
  | forces (hopen : c.state = .connected ∨ c.state = .disconnecting) :
      Does files c .forceClose .run
        { c with state := .disconnecting, functors := c.functors ++ [.forceCloseInLoop] } []
  | calls (call : Call Callback) (calls : List (Call Callback)) :
      Does files c (.user (call :: calls)) .run (c.call call).1 ((c.call call).2 ++ [.user calls])

section Exec

variable {files : Bytes → Bytes} {c c' : TcpConnection Callback} {code : Code Callback}
  {more : List (Code Callback)} {input : Input Callback Outcome Task}

theorem proceed_pair {α β : Type} {pair : α × β} {first : α} {second : β}
    (h : input.proceed pair = some (first, second)) : first = pair.1 ∧ second = pair.2 := by
  obtain ⟨-, rfl⟩ := proceed_eq_some h
  exact ⟨rfl, rfl⟩

theorem resumeOutput_resumes : Resumes c c.resumeOutput := by
  unfold TcpConnection.resumeOutput
  split
  · exact .file ‹_›
  split
  · exact .tls ‹_›
  · exact .plain (Bool.eq_false_of_not_eq_true ‹_›)

theorem keepRest_broken (rest : Bytes) (text : Numbered (TextSend Callback)) :
    (c.keepRest rest text).broken = c.broken := by
  unfold TcpConnection.keepRest
  split <;> rfl

theorem sendInLoop_broken {unit : Numbered (Output Callback)} {text : Numbered (TextSend Callback)}
    (hfault : input ≠ .fault) (h : c.sendInLoop unit text input = some (c', more)) :
    c'.broken = c.broken := by
  unfold TcpConnection.sendInLoop at h
  split at h
  · obtain ⟨rfl, rfl⟩ := proceed_pair h
    rfl
  split at h
  · obtain ⟨rfl, rfl⟩ := proceed_pair h
    rfl
  split at h
  · obtain ⟨rfl, rfl⟩ := proceed_pair h
    rfl
  split at h
  · obtain ⟨sent, hsent, heq⟩ := Option.map_eq_some_iff.mp h
    cases heq
    unfold TcpConnection.directSend at hsent
    split at hsent
    · dsimp only at hsent
      split at hsent
      · cases hsent
        split
        · rfl
        · exact keepRest_broken _ _
      · cases hsent
    all_goals first
      | exact absurd rfl hfault
      | (split at hsent
         · cases hsent
         · cases hsent
           exact keepRest_broken _ _)
      | cases hsent
  · obtain ⟨rfl, rfl⟩ := proceed_pair h
    exact keepRest_broken _ _

theorem flushTlsOutput_does (h : c.flushTlsOutput input = some (c', more)) :
    Does files c .flushTlsOutput input c' more := by
  unfold TcpConnection.flushTlsOutput at h
  split at h
  · obtain ⟨rfl, heq⟩ := proceed_eq_some h
    cases heq
    exact .leads (.idles ‹_›)
  rename_i hready
  rw [not_or, not_or, Bool.not_eq_false, Bool.not_eq_false] at hready
  obtain ⟨htls, hhandshake, hopen⟩ := hready
  split at h
  · obtain ⟨rfl, heq⟩ := proceed_eq_some h
    cases heq
    exact .flushed htls hhandshake hopen ‹_›
  · rename_i hrest
    cases input with
    | wrote count =>
      simp only at h
      split at h <;> cases h
      exact .flushes count htls ‹_›
    | wantWrite =>
      cases h
      exact .sets (.flushBlocked htls hrest)
    | wantRead =>
      cases h
      exact .sets (.flushReads htls hrest)
    | interrupted =>
      cases h
      exact .leads (.flushAgain htls hrest)
    | failed =>
      cases h
      exact .leads (.fails trivial)
    | _ => cases h

theorem handlePlainWrite_does (h : c.handlePlainWrite input = some (c', more)) :
    Does files c .handlePlainWrite input c' more := by
  unfold TcpConnection.handlePlainWrite at h
  split at h
  · obtain ⟨rfl, heq⟩ := proceed_eq_some h
    cases heq
    exact .leads (.idles ‹_›)
  rename_i hwriting
  rw [Bool.not_eq_false] at hwriting
  cases input with
  | wrote count =>
    simp only at h
    split at h
    · rename_i htakes
      split at h <;> cases h
      · exact .writesAll count hwriting htakes ‹_›
      · exact .writes count hwriting htakes ‹_›
    · cases h
  | wantWrite | interrupted | failed =>
    cases h
    exact .leads (.idles (by simp [Code.Idles]))
  | _ => cases h

theorem sendFileBytes_does (h : c.sendFileBytes files input = some (c', more)) :
    Does files c .sendFileBytes input c' more := by
  unfold TcpConnection.sendFileBytes at h
  split at h
  · obtain ⟨rfl, heq⟩ := proceed_eq_some h
    cases heq
    exact .leads (.idles (.inl ‹_›))
  rename_i file hactive
  dsimp only at h
  split at h
  · obtain ⟨rfl, heq⟩ := proceed_eq_some h
    cases heq
    exact .leads (.fileDone file hactive ‹_›)
  split at h
  · obtain ⟨rfl, heq⟩ := proceed_eq_some h
    cases heq
    exact .leads (.idles (.inr ‹_›))
  cases input with
  | wrote count =>
    simp only at h
    split at h <;> cases h
    rename_i htakes
    exact .fileBytes file count hactive htakes.1 htakes.2
  | wantWrite =>
    simp only at h
    split at h <;> cases h
    exact .sets (.fileBlocked (Bool.eq_false_of_not_eq_true ‹_›) (by simp [hactive]))
  | wantRead =>
    simp only at h
    split at h <;> cases h
    exact .sets (.fileReads ‹_› (by simp [hactive]))
  | interrupted =>
    simp only at h
    split at h <;> cases h
    exact .leads (.fileAgain (Bool.eq_false_of_not_eq_true ‹_›))
  | failed =>
    cases h
    exact .leads (.fails trivial)
  | _ => cases h

theorem handleTlsRead_does {received : Bool} (h : c.handleTlsRead received input = some (c', more)) :
    Does files c (.handleTlsRead received) input c' more := by
  unfold TcpConnection.handleTlsRead at h
  dsimp only at h
  split at h
  · obtain ⟨rfl, heq⟩ := proceed_eq_some h
    cases heq
    exact .leads (.idles ‹_›)
  rename_i hready
  rw [not_or, Bool.not_eq_false, Bool.not_eq_false] at hready
  cases input with
  | received =>
    cases h
    exact .leads (.readOn received hready)
  | wantRead =>
    cases h
    split
    · rename_i hdeliver
      obtain ⟨rfl, hconnected⟩ := Bool.and_eq_true_iff.mp hdeliver
      exact .leads (.message hconnected)
    · exact .leads (.idles ⟨rfl, Bool.eq_false_of_not_eq_true ‹_›⟩)
  | wantWrite =>
    cases h
    exact .sets (.readBlocked received hready.1)
  | interrupted =>
    cases h
    exact .leads (.readAgain received)
  | endOfStream | failed =>
    cases h
    exact .leads (.fails trivial)
  | _ => cases h

theorem driveTlsHandshake_does (h : c.driveTlsHandshake input = some (c', more)) :
    Does files c .driveTlsHandshake input c' more := by
  unfold TcpConnection.driveTlsHandshake at h
  split at h
  · obtain ⟨rfl, heq⟩ := proceed_eq_some h
    cases heq
    exact .leads (.idles ‹_›)
  rename_i hready
  rw [not_or, not_or, Bool.not_eq_false] at hready
  obtain ⟨htls, -, hopen⟩ := hready
  have hidle : ∃ writing, c.stopWritingIfIdle = { c with writing } := by
    unfold TcpConnection.stopWritingIfIdle
    split <;> exact ⟨_, rfl⟩
  obtain ⟨writing, hidle⟩ := hidle
  cases input with
  | handshaken =>
    dsimp only at h
    rw [hidle] at h
    unfold TcpConnection.notifyApplicationEstablished at h
    cases hknown : c.applicationEstablished with
    | true =>
      simp only [hknown, if_true] at h
      cases h
      exact .sets (.handshaken htls hknown writing)
    | false =>
      simp only [hknown] at h
      cases h
      exact .sets (.greets htls hopen hknown writing)
  | wantRead =>
    cases h
    rw [hidle]
    exact .sets (.handshakeReads htls writing)
  | wantWrite =>
    cases h
    exact .sets (.handshakeBlocked htls)
  | endOfStream | interrupted | failed =>
    cases h
    exact .leads (.fails trivial)
  | _ => cases h

/-- Every step is one of these. -/
theorem exec_does (h : exec files c code input = some (c', more)) :
    Does files c code input c' more := by
  cases code with
  | sendInLoop text => exact .text text (sendInLoop_cases h) (sendInLoop_broken · h)
  | startFileFrame frame =>
    simp only [exec, TcpConnection.startFileFrame] at h
    split at h
    · obtain ⟨rfl, heq⟩ := proceed_eq_some h
      cases heq
      exact .drops frame ‹_›
    · cases input <;> cases h
      · exact .leads (.opened frame ‹_›)
      · exact .openFails frame ‹_›
  | sendHeader frame =>
    obtain ⟨⟨sent, pushed⟩, hsent, heq⟩ := Option.map_eq_some_iff.mp h
    cases heq
    exact .header frame (sendInLoop_cases hsent) (sendInLoop_broken · hsent)
  | flushTlsOutput => exact flushTlsOutput_does h
  | handlePlainWrite => exact handlePlainWrite_does h
  | sendFileBytes => exact sendFileBytes_does h
  | handleTlsRead received => exact handleTlsRead_does h
  | driveTlsHandshake => exact driveTlsHandshake_does h
  | handlePlainRead =>
    cases input <;> cases h
    · exact .leads (.idles (.inl rfl))
    · exact .leads (.idles (.inr rfl))
    · exact .leads (.fails trivial)
    · exact .leads .plainMessage
    · exact .leads (.fails trivial)
  | readPending =>
    cases input <;> cases h
    split
    · rename_i hmore
      obtain ⟨rfl, -⟩ := Bool.and_eq_true_iff.mp hmore
      exact .leads .pending
    · exact .leads (.idles ⟨_, rfl⟩)
  | messageCallback =>
    cases input <;> cases h
    exact .leads (.callback (.inl rfl) _)
  | connectionCallback =>
    cases input <;> cases h
    exact .leads (.callback (.inr rfl) _)
  | completion unit => cases h
  | user calls =>
    cases calls with
    | nil =>
      obtain ⟨rfl, heq⟩ := proceed_eq_some h
      cases heq
      exact .leads (.idles trivial)
    | cons call calls =>
      obtain ⟨rfl, heq⟩ := proceed_eq_some h
      cases heq
      exact .calls call calls
  | activate frame =>
    obtain ⟨rfl, heq⟩ := proceed_eq_some h
    cases heq
    exact .activates frame
  | flushFileSend =>
    obtain ⟨rfl, heq⟩ := proceed_eq_some h
    cases heq
    unfold TcpConnection.flushFileSend
    split
    · exact .leads (.idles ‹_›)
    rename_i hopen
    rw [not_or, ← ne_eq, Option.ne_none_iff_isSome] at hopen
    split
    · exact .leads (.file hopen.1 hopen.2 ‹_›)
    · split
      · exact .leads (.flushTls ‹_› ‹_›)
      · exact .leads (.flushPlain (Bool.eq_false_of_not_eq_true ‹_›) ‹_›)
  | outputFlushed =>
    obtain ⟨rfl, heq⟩ := proceed_eq_some h
    cases heq
    unfold TcpConnection.outputFlushed
    split
    · exact .leads (.idles ‹_›)
    · rename_i hflushed
      rw [not_or, not_not] at hflushed
      exact .leads (.flushed hflushed.1 hflushed.2)
  | finishActiveFileSend =>
    obtain ⟨rfl, heq⟩ := proceed_eq_some h
    unfold TcpConnection.finishActiveFileSend at heq
    split at heq <;> cases heq
    · exact .leads (.idles ‹_›)
    · exact .finishes _ ‹_›
  | drainDeferredSends =>
    obtain ⟨rfl, heq⟩ := proceed_eq_some h
    unfold TcpConnection.drainDeferredSends at heq
    split at heq <;> cases heq
    · exact .drains _ _ ‹_› ‹_›
    · rename_i hnone
      refine .leads (.drained fun hidle => ?_)
      cases hdeferred : c.deferredSends with
      | nil => rfl
      | cons text texts => exact absurd hdeferred (hnone text texts hidle)
  | startNextQueuedFileFrame =>
    obtain ⟨rfl, heq⟩ := proceed_eq_some h
    unfold TcpConnection.startNextQueuedFileFrame at heq
    split at heq
    · split at heq <;> cases heq
      · exact .leads (.idles trivial)
      · exact .starts _ _ ‹_› ‹_› ‹_›
    · cases heq
      exact .leads (.idles trivial)
  | settleWriting =>
    obtain ⟨rfl, heq⟩ := proceed_eq_some h
    cases heq
    unfold TcpConnection.settleWriting
    split
    · rename_i hidle
      exact .sets (.settles hidle.1 hidle.2)
    · rename_i hbusy
      exact .leads (.idles (not_and_or.mp hbusy))
  | forceClose =>
    obtain ⟨rfl, heq⟩ := proceed_eq_some h
    cases heq
    unfold TcpConnection.forceClose
    split
    · exact .forces ‹_›
    · refine .leads (.idles ?_)
      cases hstate : c.state <;> simp_all [Code.Idles]
  | afterRead =>
    obtain ⟨rfl, heq⟩ := proceed_eq_some h
    unfold TcpConnection.afterRead at heq
    split at heq <;> cases heq
    · exact .sets (.readDone resumeOutput_resumes)
    · exact .leads (.idles trivial)
  | afterBlockedRead =>
    obtain ⟨rfl, heq⟩ := proceed_eq_some h
    cases heq
    unfold TcpConnection.afterBlockedRead
    split
    · exact .leads (.resumes resumeOutput_resumes)
    · exact .leads (.idles trivial)
  | afterEstablished =>
    obtain ⟨rfl, heq⟩ := proceed_eq_some h
    cases heq
    unfold TcpConnection.afterEstablished
    split
    · exact .leads (.established ‹_›)
    · exact .leads (.establishedOutput ‹_›)
  | handleClose =>
    obtain ⟨rfl, heq⟩ := proceed_eq_some h
    unfold TcpConnection.handleClose at heq
    split at heq <;> cases heq
    · exact .leads (.idles ‹_›)
    · exact .closes ‹_›

end Exec

/-! ### Calls, functors and events -/

/-- A request is accepted on the thread of the loop. -/
inductive Accepts (c : TcpConnection Callback) :
    Output Callback → TcpConnection Callback → List (Code Callback) → Prop where
  | text (send : TextSend Callback) :
      Accepts c (.text send)
        { c with accepted := c.accepted ++ [textUnit ⟨c.accepted.length, send⟩] }
        [.sendInLoop ⟨c.accepted.length, send⟩]
  | queued (frame : FileFrame Callback) (hactive : c.activeFileSend.isSome) :
      Accepts c (.frame frame)
        { c with
          accepted := c.accepted ++ [frameUnit ⟨c.accepted.length, frame⟩]
          queuedFileFrames := c.queuedFileFrames ++ [⟨c.accepted.length, frame⟩] } []
  | frame (frame : FileFrame Callback) (hidle : c.activeFileSend = none) :
      Accepts c (.frame frame)
        { c with accepted := c.accepted ++ [frameUnit ⟨c.accepted.length, frame⟩] }
        [.startFileFrame ⟨c.accepted.length, frame⟩]

/-- What a call on the thread of the loop does. -/
inductive Called (c : TcpConnection Callback) :
    Call Callback → TcpConnection Callback → List (Code Callback) → Prop where
  | ignored {call} (hcall : call = .forceClose ∨ c.connected = false) : Called c call c []
  | accepts {call output c' more} (hup : c.state = .connected) (hcall : call.output = some output)
      (h : Accepts c output c' more) : Called c call c' more
  | shutdown (hup : c.state = .connected) : Called c .shutdown { c with state := .disconnecting } []
  | forced (hopen : c.state = .connected ∨ c.state = .disconnecting) :
      Called c .forceClose
        { c with state := .disconnecting, functors := c.functors ++ [.forceCloseInLoop] } []

/-- What a call on another thread does. -/
inductive Posts (c : TcpConnection Callback) : Call Callback → TcpConnection Callback → Prop where
  | ignored {call} : Posts c call c
  | queued {call} {functor : Functor Callback} (hup : c.state = .connected)
      (hcall : call.output = functor.request) (hfunctor : functor.request.isSome) :
      Posts c call { c with functors := c.functors ++ [functor] }
  | shutdown (hup : c.state = .connected) :
      Posts c .shutdown
        { c with state := .disconnecting, functors := c.functors ++ [.shutdownInLoop] }
  | forced (hopen : c.state = .connected ∨ c.state = .disconnecting) :
      Posts c .forceClose
        { c with state := .disconnecting, functors := c.functors ++ [.forceCloseInLoop] }

/-- What a functor does. -/
inductive Ran (c : TcpConnection Callback) :
    Functor Callback → TcpConnection Callback → List (Code Callback) → Prop where
  | ignored {functor} (hfunctor : functor.ready = none) : Ran c functor c []
  | accepts {functor output c' more} (hopen : c.state ≠ .disconnected)
      (hfunctor : functor.request = some output) (h : Accepts c output c' more) :
      Ran c functor c' more
  | closes (hopen : c.state = .connected ∨ c.state = .disconnecting) :
      Ran c .forceCloseInLoop c [.handleClose]
  | completion (unit : Numbered (Output Callback)) : Ran c (.completion unit) c [.completion unit]

/-- What an event of the channel starts. -/
inductive Arises (c : TcpConnection Callback) : Input Callback Outcome Task →
    TcpConnection Callback → List (Code Callback) → Prop where
  | read (htls : c.tls = true) (hhandshake : c.tlsHandshakeComplete = true) :
      Arises c .readable c [.handleTlsRead false, .afterRead]
  | handshakes {input} (hinput : input = .readable ∨ input = .writable) (htls : c.tls = true)
      (hhandshake : c.tlsHandshakeComplete = false) : Arises c input c [.driveTlsHandshake]
  | plainRead (htls : c.tls = false) : Arises c .readable c [.handlePlainRead]
  | blockedRead (htls : c.tls = true) (hhandshake : c.tlsHandshakeComplete = true) :
      Arises c .writable { c with tlsReadBlockedOnWrite := false }
        [.handleTlsRead false, .afterBlockedRead]
  | write {code} (hresumes : Resumes c code) : Arises c .writable c [code]
  | hangup : Arises c .hangup c [.handleClose]
  | connectTls (hyoung : c.state = .connecting) (htls : c.tls = true) :
      Arises c .connectEstablished { c with state := .connected } [.driveTlsHandshake]
  | connectKnown (hyoung : c.state = .connecting) (hknown : c.applicationEstablished = true) :
      Arises c .connectEstablished { c with state := .connected } []
  | connects (hyoung : c.state = .connecting) (hnew : c.applicationEstablished = false)
      (htls : c.tls = false) :
      Arises c .connectEstablished { c with state := .connected, applicationEstablished := true }
        [.connectionCallback]

/-- What wakes a connection with an empty stack. -/
inductive Wakes (c : TcpConnection Callback) : Input Callback Outcome Task →
    TcpConnection Callback → List (Code Callback) → Prop where
  | call (call : Call Callback) {c' more} (h : Called c call c' more) : Wakes c (.call call) c' more
  | functor (functor : Functor Callback) (functors : List (Functor Callback))
      (hfunctors : c.functors = functor :: functors) {c' more}
      (h : Ran { c with functors } functor c' more) : Wakes c .functor c' more
  | event {input c' more} (h : Arises c input c' more) : Wakes c input c' more

section Calls

variable {c c' : TcpConnection Callback} {more : List (Code Callback)}
  {input : Input Callback Outcome Task}

theorem some_pair {α β : Type} {pair : α × β} {first : α} {second : β}
    (h : some pair = some (first, second)) : first = pair.1 ∧ second = pair.2 := by
  rw [Option.some.inj h]
  exact ⟨rfl, rfl⟩

theorem connected_iff : c.connected = true ↔ c.state = .connected := by
  simp [TcpConnection.connected]

theorem sendFileFrameInLoop_accepts (frame : FileFrame Callback) :
    Accepts c (.frame frame) (c.sendFileFrameInLoop frame).1 (c.sendFileFrameInLoop frame).2 := by
  unfold TcpConnection.sendFileFrameInLoop
  dsimp only
  split
  · exact .queued frame ‹_›
  · exact .frame frame (Option.not_isSome_iff_eq_none.mp ‹_›)

theorem call_called (call : Call Callback) : Called c call (c.call call).1 (c.call call).2 := by
  cases call with
  | send message completion =>
    unfold TcpConnection.call
    dsimp only
    split
    · exact .accepts (connected_iff.mp ‹_›) rfl (.text ⟨message, completion⟩)
    · exact .ignored (.inr (Bool.eq_false_of_not_eq_true ‹_›))
  | sendFileFrame header path offset byteCount completion =>
    unfold TcpConnection.call
    dsimp only
    split
    · exact .accepts (connected_iff.mp ‹_›) rfl (sendFileFrameInLoop_accepts _)
    · exact .ignored (.inr (Bool.eq_false_of_not_eq_true ‹_›))
  | shutdown =>
    unfold TcpConnection.call
    dsimp only
    split
    · exact .shutdown (connected_iff.mp ‹_›)
    · exact .ignored (.inr (Bool.eq_false_of_not_eq_true ‹_›))
  | forceClose =>
    unfold TcpConnection.call TcpConnection.forceClose
    dsimp only
    split
    · exact .forced ‹_›
    · exact .ignored (.inl rfl)

theorem post_posted (call : Call Callback) : Posts c call (c.post call) := by
  cases call with
  | send message completion | sendFileFrame header path offset byteCount completion =>
    unfold TcpConnection.post
    dsimp only
    split
    · exact .queued (connected_iff.mp ‹_›) rfl rfl
    · exact .ignored
  | shutdown =>
    unfold TcpConnection.post
    dsimp only
    split
    · exact .shutdown (connected_iff.mp ‹_›)
    · exact .ignored
  | forceClose =>
    unfold TcpConnection.post TcpConnection.forceClose
    dsimp only
    split
    · exact .forced ‹_›
    · exact .ignored

theorem runFunctor_ran (functor : Functor Callback) :
    Ran c functor (c.runFunctor functor).1 (c.runFunctor functor).2 := by
  cases functor with
  | sendInLoop message completion =>
    unfold TcpConnection.runFunctor
    dsimp only
    split
    · exact .ignored rfl
    · exact .accepts ‹_› rfl (.text ⟨message, completion⟩)
  | sendFileFrameInLoop header path offset byteCount completion =>
    unfold TcpConnection.runFunctor
    dsimp only
    split
    · exact .ignored rfl
    · exact .accepts ‹_› rfl (sendFileFrameInLoop_accepts _)
  | shutdownInLoop => exact .ignored rfl
  | forceCloseInLoop =>
    unfold TcpConnection.runFunctor
    dsimp only
    split
    · exact .closes ‹_›
    · exact .ignored rfl
  | completion unit => exact .completion unit

theorem wake_wakes (h : wake c input = some (c', more)) : Wakes c input c' more := by
  cases input with
  | call call =>
    obtain ⟨rfl, rfl⟩ := some_pair h
    exact .call call (call_called call)
  | functor =>
    simp only [wake] at h
    split at h
    · cases h
    · obtain ⟨rfl, rfl⟩ := some_pair h
      exact .functor _ _ ‹_› (runFunctor_ran _)
  | readable =>
    obtain ⟨rfl, rfl⟩ := some_pair h
    unfold TcpConnection.handleRead
    split_ifs with htls hhandshake
    · exact .event (.read htls hhandshake)
    · exact .event (.handshakes (.inl rfl) htls (Bool.eq_false_of_not_eq_true hhandshake))
    · exact .event (.plainRead (Bool.eq_false_of_not_eq_true htls))
  | writable =>
    obtain ⟨rfl, rfl⟩ := some_pair h
    unfold TcpConnection.handleWrite
    split_ifs with htls hhandshake
    · exact .event (.handshakes (.inr rfl) htls hhandshake)
    · exact .event (.blockedRead htls (by simpa using hhandshake))
    · exact .event (.write resumeOutput_resumes)
    · exact .event (.write resumeOutput_resumes)
  | hangup =>
    obtain ⟨rfl, rfl⟩ := some_pair h
    exact .event .hangup
  | connectEstablished =>
    simp only [wake] at h
    split at h
    · rename_i hyoung
      obtain ⟨rfl, rfl⟩ := some_pair h
      unfold TcpConnection.connectEstablished TcpConnection.notifyApplicationEstablished
      dsimp only
      split_ifs with htls hknown
      · exact .event (.connectTls hyoung htls)
      · exact .event (.connectKnown hyoung hknown)
      · exact .event (.connects hyoung (Bool.eq_false_of_not_eq_true hknown)
          (Bool.eq_false_of_not_eq_true htls))
    · cases h
  | _ => cases h

end Calls

end ChatRoom.Net
