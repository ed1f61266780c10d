import ChatRoom.Proof.OutputOrder

/-! # What the code of a connection leaves alone -/

namespace ChatRoom.Net

open OutputLedger

variable {Callback Owner Outcome Task : Type}

namespace Code

def buffers : Code Callback → Bool
  | .sendInLoop _ | .sendHeader _ | .flushTlsOutput | .handlePlainWrite => true
  | _ => false

def asksShutdown : Code Callback → Bool
  | .user (.shutdown :: _) => true
  | _ => false

def stopsWriting : Code Callback → Bool
  | .settleWriting | .driveTlsHandshake | .handleClose => true
  | _ => false

def Modest (code : Code Callback) : Prop :=
  code ≠ .handlePlainWrite ∧ code ≠ .settleWriting ∧ code.opening = none

end Code

/-- What no step of the connection does, whatever the code on top of the stack. -/
structure Frame (c : TcpConnection Callback) (code : Option (Code Callback))
    (c' : TcpConnection Callback) (more : List (Code Callback)) : Prop where
  buffer : code.any Code.buffers = false → c'.outputBuffer = c.outputBuffer
  tls : c'.tls = c.tls
  handshake : c.tlsHandshakeComplete = true → c'.tlsHandshakeComplete = true
  shuts : c'.state = .disconnecting → c.state = .disconnecting ∨
    .forceCloseInLoop ∈ c'.functors ∨ code.any Code.asksShutdown = true ∧ c.state = .connected
  down : c.state = .disconnecting ∨ c.state = .disconnected →
    c'.state = .disconnecting ∨ c'.state = .disconnected
  kept : ∀ functor ∈ c.functors, functor ∈ c'.functors
  added : ∀ functor ∈ c'.functors, functor ∈ c.functors ∨
    functor.request = none ∧ functor ≠ .shutdownInLoop
  writing : code.any Code.buffers = false → code.any Code.stopsWriting = false →
    c.writing = true → c'.writing = true
  plain : c.tls = true → .handlePlainWrite ∉ more
  settles : .settleWriting ∈ more → c.activeFileSend ≠ none
  opens : (∀ frame, code ≠ some (.sendHeader frame)) → ∀ other ∈ more, other.opening = none

section Frames

variable {files : Bytes → Bytes} {c c' : TcpConnection Callback} {code : Option (Code Callback)}
  {more : List (Code Callback)} {input : Input Callback Outcome Task}

namespace Frame

theorem of_same (hbuffer : c'.outputBuffer = c.outputBuffer) (htls : c'.tls = c.tls)
    (hhandshake : c'.tlsHandshakeComplete = c.tlsHandshakeComplete) (hstate : c'.state = c.state)
    (hfunctors : c'.functors = c.functors) (hwriting : c.writing = true → c'.writing = true)
    (hplain : c.tls = true → .handlePlainWrite ∉ more) (hsettles : .settleWriting ∉ more)
    (hopens : ∀ other ∈ more, other.opening = none) : Frame c code c' more where
  buffer := fun _ => hbuffer
  tls := htls
  handshake := hhandshake.trans
  shuts := fun h => .inl (hstate.symm.trans h)
  down := by rw [hstate]; exact id
  kept := by rw [hfunctors]; exact fun _ => id
  added := by rw [hfunctors]; exact fun _ => .inl
  writing := fun _ _ => hwriting
  plain := hplain
  settles := fun h => absurd h hsettles
  opens := fun _ => hopens

theorem still (hbuffer : c'.outputBuffer = c.outputBuffer) (htls : c'.tls = c.tls)
    (hhandshake : c'.tlsHandshakeComplete = c.tlsHandshakeComplete) (hstate : c'.state = c.state)
    (hfunctors : c'.functors = c.functors) (hwriting : c.writing = true → c'.writing = true)
    (hmore : ∀ other ∈ more, other.Modest) : Frame c code c' more :=
  of_same hbuffer htls hhandshake hstate hfunctors hwriting
    (fun _ h => (hmore _ h).1 rfl) (fun h => (hmore _ h).2.1 rfl) fun other h => (hmore other h).2.2

theorem on (hmore : ∀ other ∈ more, other.Modest) : Frame c code c more :=
  still rfl rfl rfl rfl rfl id hmore

theorem append {after : List (Code Callback)} (h : Frame c code c' more)
    (hafter : ∀ other ∈ after, other.Modest) : Frame c code c' (more ++ after) :=
  { h with
    plain := fun htls hin => (List.mem_append.mp hin).elim (h.plain htls)
      fun hin => (hafter _ hin).1 rfl
    settles := fun hin => (List.mem_append.mp hin).elim h.settles
      fun hin => absurd rfl (hafter _ hin).2.1
    opens := fun hcode other hin => (List.mem_append.mp hin).elim (h.opens hcode other)
      fun hin => (hafter _ hin).2.2 }

end Frame

theorem Frame.resumes {other : Code Callback} (hresumes : Resumes c other)
    (hbuffer : c'.outputBuffer = c.outputBuffer) (htls : c'.tls = c.tls)
    (hhandshake : c'.tlsHandshakeComplete = c.tlsHandshakeComplete) (hstate : c'.state = c.state)
    (hfunctors : c'.functors = c.functors) (hwriting : c'.writing = c.writing) :
    Frame c code c' [other] := by
  refine .of_same hbuffer htls hhandshake hstate hfunctors (by rw [hwriting]; exact id) ?_ ?_ ?_
  · cases hresumes <;> simp [*]
  · cases hresumes <;> simp
  · cases hresumes <;> simp [Code.opening]

theorem Frame.forced :
    Frame c code
      { c with state := .disconnecting, functors := c.functors ++ [.forceCloseInLoop] } [] where
  buffer := fun _ => rfl
  tls := rfl
  handshake := id
  shuts := fun _ => .inr (.inl (by simp))
  down := fun _ => .inl rfl
  kept := by simp +contextual
  added := by
    intro functor hin
    rcases List.mem_append.mp hin with hin | hin
    · exact .inl hin
    · obtain rfl := List.mem_singleton.mp hin
      exact .inr ⟨rfl, nofun⟩
  writing := fun _ _ => id
  plain := by simp
  settles := by simp
  opens := by simp

theorem Accepts.framed {output : Output Callback} (h : Accepts c output c' more) :
    Frame c code c' more := by
  cases h <;> exact .still rfl rfl rfl rfl rfl id (by simp [Code.Modest, Code.opening])

theorem Called.frame {call : Call Callback} (h : Called c call c' more)
    (calls : List (Call Callback)) : Frame c (some (.user (call :: calls))) c' more := by
  cases h with
  | ignored => exact .on (by simp)
  | accepts _ _ haccepts => exact haccepts.framed
  | shutdown hup =>
    exact {
      buffer := fun _ => rfl
      tls := rfl
      handshake := id
      shuts := fun _ => .inr (.inr ⟨rfl, hup⟩)
      down := fun _ => .inl rfl
      kept := fun _ => id
      added := fun _ => .inl
      writing := fun _ _ => id
      plain := by simp
      settles := by simp
      opens := by simp }
  | forced => exact .forced

theorem Frame.of_completions (units : List (Numbered (Output Callback)))
    (hbuffer : code.any Code.buffers = true) (htls : c'.tls = c.tls)
    (hhandshake : c'.tlsHandshakeComplete = c.tlsHandshakeComplete) (hstate : c'.state = c.state)
    (hfunctors : c'.functors = c.functors ++ units.map .completion)
    (hmore : ∀ other ∈ more, other.Modest) : Frame c code c' more where
  buffer := fun h => absurd (h.symm.trans hbuffer) nofun
  tls := htls
  handshake := hhandshake.trans
  shuts := fun h => .inl (hstate.symm.trans h)
  down := by rw [hstate]; exact id
  kept := by rw [hfunctors]; exact fun _ => List.mem_append_left _
  added := by
    intro functor hin
    rw [hfunctors] at hin
    rcases List.mem_append.mp hin with hin | hin
    · exact .inl hin
    · obtain ⟨unit, -, rfl⟩ := List.mem_map.mp hin
      exact .inr ⟨rfl, nofun⟩
  writing := fun h => absurd (h.symm.trans hbuffer) nofun
  plain := fun _ h => (hmore _ h).1 rfl
  settles := fun h => absurd rfl (hmore _ h).2.1
  opens := fun _ other h => (hmore other h).2.2

theorem frame_sends {unit : Numbered (Output Callback)} {text : Numbered (TextSend Callback)}
    (hcode : code.any Code.buffers = true) (h : Sends c unit text c' more) :
    Frame c code c' more := by
  have hflush : ∀ {more : List (Code Callback)}, more = [] ∨ more = [.flushTlsOutput] →
      ∀ other ∈ more, other.Modest := by
    rintro more (rfl | rfl) <;> simp [Code.Modest, Code.opening]
  cases h with
  | closed hstate | deferred hstate hactive | broke hstate hidle hplain hwriting hempty =>
    exact .of_completions [] hcode rfl rfl rfl (List.append_nil _).symm (by simp)
  | gone first rest writing hstate hidle hlive hmessage hfirst hmore =>
    exact .of_completions [] hcode rfl rfl rfl (List.append_nil _).symm (hflush hmore)
  | kept first rest writing hstate hidle hlive hmessage hfirst hmore hcompletion =>
    exact .of_completions [] hcode rfl rfl rfl (List.append_nil _).symm (hflush hmore)
  | sent hstate hidle hsound hempty hcompletion =>
    exact .of_completions [textUnit text] hcode rfl rfl rfl rfl (by simp)

theorem Frame.of_stops (hstops : code.any Code.stopsWriting = true)
    (hbuffer : c'.outputBuffer = c.outputBuffer) (htls : c'.tls = c.tls)
    (hhandshake : c.tlsHandshakeComplete = true → c'.tlsHandshakeComplete = true)
    (hstate : c'.state = c.state ∨ c'.state = .disconnected) (hfunctors : c'.functors = c.functors)
    (hmore : ∀ other ∈ more, other.Modest) : Frame c code c' more where
  buffer := fun _ => hbuffer
  tls := htls
  handshake := hhandshake
  shuts := fun h => .inl (hstate.elim (fun hsame => hsame.symm.trans h) fun hdown => by
    rw [hdown] at h
    cases h)
  down := fun h => hstate.elim (fun hsame => by rwa [hsame]) .inr
  kept := by rw [hfunctors]; exact fun _ => id
  added := by rw [hfunctors]; exact fun _ => .inl
  writing := fun _ h => absurd (h.symm.trans hstops) nofun
  plain := fun _ h => (hmore _ h).1 rfl
  settles := fun h => absurd rfl (hmore _ h).2.1
  opens := fun _ other h => (hmore other h).2.2

theorem Leads.frame {code : Code Callback} (h : Leads c code input more) :
    Frame c (some code) c more := by
  cases h with
  | flushPlain htls =>
    exact .of_same rfl rfl rfl rfl rfl id (by simp [htls]) (by simp) (by simp [Code.opening])
  | resumes hresumes => exact .resumes hresumes rfl rfl rfl rfl rfl rfl
  | _ => exact .on (by simp [Code.Modest, Code.opening])

theorem Sets.frame {code : Code Callback} (h : Sets c code input c' more) :
    Frame c (some code) c' more := by
  cases h with
  | fileBlocked => exact .still rfl rfl rfl rfl rfl (fun _ => rfl) (by simp)
  | fileReads => exact .still rfl rfl rfl rfl rfl id (by simp)
  | flushBlocked | flushReads =>
    exact .of_completions [] rfl rfl rfl rfl (List.append_nil _).symm (by simp)
  | readBlocked =>
    refine .still rfl rfl rfl rfl rfl (fun _ => rfl) ?_
    split <;> simp [Code.Modest, Code.opening]
  | readDone hresumes => exact .resumes hresumes rfl rfl rfl rfl rfl rfl
  | greets | handshaken =>
    exact .of_stops rfl rfl rfl (fun _ => rfl) (.inl rfl) rfl (by simp [Code.Modest, Code.opening])
  | settles | handshakeReads | handshakeBlocked =>
    exact .of_stops rfl rfl rfl id (.inl rfl) rfl (by simp)

theorem exec_frame {code : Code Callback} (hexec : exec files c code input = some (c', more)) :
    Frame c (some code) c' more := by
  have hstill : ∀ {d : TcpConnection Callback}, d.outputBuffer = c.outputBuffer → d.tls = c.tls →
      d.tlsHandshakeComplete = c.tlsHandshakeComplete → d.state = c.state →
      d.functors = c.functors → (c.writing = true → d.writing = true) → Frame c (some code) d [] :=
    fun hbuffer htls hhandshake hstate hfunctors hwriting =>
      .still hbuffer htls hhandshake hstate hfunctors hwriting (by simp)
  cases exec_does hexec with
  | leads hleads => exact hleads.frame
  | sets hsets => exact hsets.frame
  | text text hsends => exact frame_sends rfl hsends
  | header frame hsends =>
    have hframe : Frame c (some (.sendHeader frame)) c' _ := frame_sends rfl hsends
    exact { hframe with
      plain := fun htls => by simpa using hframe.plain htls
      settles := fun hin => hframe.settles (by simpa using hin)
      opens := fun hcode => absurd rfl (hcode frame) }
  | finishes file hactive =>
    exact { hstill rfl rfl rfl rfl rfl id with
      plain := by simp
      settles := fun _ => by simp [hactive]
      opens := by simp [Code.opening] }
  | flushed =>
    refine .of_completions (c.pendingSendCompletions.map textUnit) rfl rfl rfl rfl ?_ (by simp)
    simp [TcpConnection.finishOutputCompletions, Function.comp_def]
  | flushes | writes =>
    exact .of_completions [] rfl rfl rfl rfl (List.append_nil _).symm
      (by simp [Code.Modest, Code.opening])
  | writesAll =>
    refine .of_completions (c.pendingSendCompletions.map textUnit) rfl rfl rfl rfl ?_ (by simp)
    simp [TcpConnection.finishOutputCompletions, TcpConnection.emit, Function.comp_def]
  | closes =>
    refine .of_stops rfl rfl rfl id (.inr rfl) rfl ?_
    split <;> simp [Code.Modest, Code.opening]
  | forces => exact .forced
  | calls call calls =>
    exact ((call_called call).frame calls).append (by simp [Code.Modest, Code.opening])
  | _ => exact .still rfl rfl rfl rfl rfl id (by simp [Code.Modest, Code.opening])

/-! ### What the loop starts -/

theorem Ran.frame {functor : Functor Callback} (h : Ran c functor c' more) :
    Frame c none c' more := by
  cases h with
  | accepts _ _ haccepts => exact haccepts.framed
  | _ => exact .on (by simp [Code.Modest, Code.opening])

theorem Arises.frame (h : Arises c input c' more) : Frame c none c' more := by
  have hup : ∀ {d : TcpConnection Callback}, c.state = .connecting → d.state = .connected →
      Frame c none { d with state := c.state } more → Frame c none d more :=
    fun hyoung hstate hstill =>
      { hstill with
        shuts := by simp [hstate]
        down := by simp [hyoung] }
  cases h with
  | write hresumes => exact .resumes hresumes rfl rfl rfl rfl rfl rfl
  | connectTls hyoung | connectKnown hyoung | connects hyoung =>
    exact hup hyoung rfl (.still rfl rfl rfl rfl rfl id (by simp [Code.Modest, Code.opening]))
  | _ => exact .still rfl rfl rfl rfl rfl id (by simp [Code.Modest, Code.opening])

end Frames

end ChatRoom.Net
