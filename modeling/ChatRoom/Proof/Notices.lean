import ChatRoom.Proof.OutputFrame

/-! # What the code of a connection tells the application -/

namespace ChatRoom.Net

open OutputLedger

variable {Callback Owner Outcome Task : Type}

namespace Code

def notice : Code Callback → Bool
  | .messageCallback | .connectionCallback | .handlePlainRead => true
  | _ => false

def delivers : Code Callback → Bool
  | .handleTlsRead true | .messageCallback | .handleClose => true
  | _ => false

def Calm (code : Code Callback) : Prop := code.notice = false ∧ code.delivers = false

end Code

/-- The state stays, unless the server itself starts to close the connection. -/
structure Steady (c c' : TcpConnection Callback) : Prop where
  tls : c'.tls = c.tls
  handshake : c.tlsHandshakeComplete = true → c'.tlsHandshakeComplete = true
  state : c'.state = c.state ∨
    c'.state = .disconnecting ∧ (c.state = .connected ∨ c.state = .disconnecting)
  functors : .forceCloseInLoop ∈ c'.functors →
    .forceCloseInLoop ∈ c.functors ∨ c'.state = .disconnecting

structure Continues (c c' : TcpConnection Callback) : Prop extends Steady c c' where
  established : c'.applicationEstablished = c.applicationEstablished

/-- What a step tells the application. -/
inductive Tells (c : TcpConnection Callback) (code : Code Callback) (c' : TcpConnection Callback)
    (more : List (Code Callback)) : Prop where
  | quietly (hcontinues : Continues c c') (hmore : ∀ other ∈ more, other.notice = false)
  | message (hcontinues : Continues c c') (hmore : more = [.messageCallback])
      (hwhen : code = .handlePlainRead ∨ c.state = .connected)
  | greets (hbefore : c.applicationEstablished = false) (hafter : c'.applicationEstablished = true)
      (htls : c'.tls = c.tls) (hopen : c.state ≠ .disconnected) (hstate : c'.state = c.state)
      (hmore : more = [.connectionCallback, .afterEstablished])
  | closes (hcode : code = .handleClose) (hopen : c.state ≠ .disconnected)
      (hstate : c'.state = .disconnected)
      (hestablished : c'.applicationEstablished = c.applicationEstablished) (htls : c'.tls = c.tls)
      (hmore : more = if c.applicationEstablished then [.connectionCallback] else [])

section Telling

variable {files : Bytes → Bytes} {c c' d : TcpConnection Callback} {code : Code Callback}
  {more : List (Code Callback)} {input : Input Callback Outcome Task}

theorem Steady.same (h : Steady c c') (hstays : c'.state ≠ .disconnecting) : c'.state = c.state :=
  h.state.resolve_right fun hdown => hstays hdown.1

theorem Steady.refl (c : TcpConnection Callback) : Steady c c := ⟨rfl, id, .inl rfl, .inl⟩

theorem Continues.refl (c : TcpConnection Callback) : Continues c c := ⟨.refl c, rfl⟩

theorem Continues.trans (h : Continues c d) (h' : Continues d c') : Continues c c' where
  established := h'.established.trans h.established
  tls := h'.tls.trans h.tls
  handshake := fun hdone => h'.handshake (h.handshake hdone)
  state := by
    rcases h'.state with hsame | ⟨hdown, hopen⟩
    · rw [hsame]
      exact h.state
    · refine .inr ⟨hdown, ?_⟩
      rcases h.state with hsame | ⟨-, hopen'⟩
      · rwa [← hsame]
      · exact hopen'
  functors := by
    intro hforce
    rcases h'.functors hforce with hforce | hdown
    · refine (h.functors hforce).imp_right fun hdown => ?_
      exact h'.state.elim (fun hsame => hsame.trans hdown) And.left
    · exact .inr hdown

theorem Accepts.continues {output : Output Callback} (h : Accepts c output c' more) :
    Continues c c' ∧ ∀ other ∈ more, other.Calm := by
  cases h <;>
    exact ⟨⟨⟨rfl, id, .inl rfl, .inl⟩, rfl⟩, by simp [Code.Calm, Code.notice, Code.delivers]⟩

theorem Called.continues {call : Call Callback} (h : Called c call c' more) :
    Continues c c' ∧ ∀ other ∈ more, other.Calm := by
  cases h with
  | ignored => exact ⟨.refl c, by simp⟩
  | accepts _ _ haccepts => exact haccepts.continues
  | shutdown hup => exact ⟨⟨⟨rfl, id, .inr ⟨rfl, .inl hup⟩, .inl⟩, rfl⟩, by simp⟩
  | forced hopen => exact ⟨⟨⟨rfl, id, .inr ⟨rfl, hopen⟩, fun _ => .inr rfl⟩, rfl⟩, by simp⟩

theorem continues_post (call : Call Callback) :
    Continues c (c.post call) ∧ (c.state = .connecting → c.post call = c) := by
  have hposted := post_posted (c := c) call
  generalize c.post call = d at hposted
  cases hposted with
  | ignored => exact ⟨.refl c, fun _ => rfl⟩
  | @queued _ functor hup _ hfunctor =>
    refine ⟨⟨⟨rfl, id, .inl rfl, fun hin => .inl ?_⟩, rfl⟩, by simp [hup]⟩
    rcases List.mem_append.mp hin with hin | hin
    · exact hin
    · rw [← List.mem_singleton.mp hin] at hfunctor
      cases hfunctor
  | shutdown hup =>
    exact ⟨⟨⟨rfl, id, .inr ⟨rfl, .inl hup⟩, fun _ => .inr rfl⟩, rfl⟩, by simp [hup]⟩
  | forced hopen =>
    refine ⟨⟨⟨rfl, id, .inr ⟨rfl, hopen⟩, fun _ => .inr rfl⟩, rfl⟩, fun hyoung => ?_⟩
    simp [hyoung] at hopen

theorem continues_posts (calls : List (Call Callback)) :
    Continues c (calls.foldl TcpConnection.post c) ∧
      (c.state = .connecting → calls.foldl TcpConnection.post c = c) := by
  induction calls generalizing c with
  | nil => exact ⟨.refl c, fun _ => rfl⟩
  | cons call calls ih =>
    obtain ⟨hfirst, hyoung⟩ := continues_post (c := c) call
    refine ⟨hfirst.trans ih.1, fun hnew => ?_⟩
    rw [List.foldl_cons, hyoung hnew]
    exact ih.2 hnew

theorem continues_sends {unit : Numbered (Output Callback)} {text : Numbered (TextSend Callback)}
    (h : Sends c unit text c' more) : Continues c c' ∧ ∀ other ∈ more, other.Calm := by
  have hflush : ∀ {more : List (Code Callback)}, more = [] ∨ more = [.flushTlsOutput] →
      ∀ other ∈ more, other.Calm := by
    rintro more (rfl | rfl) <;> simp [Code.Calm, Code.notice, Code.delivers]
  cases h with
  | closed | deferred | broke => exact ⟨⟨⟨rfl, id, .inl rfl, .inl⟩, rfl⟩, by simp⟩
  | sent => exact ⟨⟨⟨rfl, id, .inl rfl, fun hforce => .inl (by simpa using hforce)⟩, rfl⟩, by simp⟩
  | gone _ _ _ _ _ _ _ _ hmore => exact ⟨⟨⟨rfl, id, .inl rfl, .inl⟩, rfl⟩, hflush hmore⟩
  | kept _ _ _ _ _ _ _ _ hmore => exact ⟨⟨⟨rfl, id, .inl rfl, .inl⟩, rfl⟩, hflush hmore⟩

theorem steady_finish (hsteady : Steady c c') : Steady c c'.finishOutputCompletions :=
  ⟨hsteady.tls, hsteady.handshake, hsteady.state, fun hforce =>
    hsteady.functors (by simpa [TcpConnection.finishOutputCompletions] using hforce)⟩

theorem Tells.still (hestablished : c'.applicationEstablished = c.applicationEstablished)
    (hsteady : Steady c c') (hmore : ∀ other ∈ more, other.notice = false) : Tells c code c' more :=
  .quietly ⟨hsteady, hestablished⟩ hmore

theorem Tells.on (hmore : ∀ other ∈ more, other.notice = false) : Tells c code c more :=
  .still rfl (.refl c) hmore

theorem Leads.tells (h : Leads c code input more)
    (hcode : code = .handlePlainRead ∨ code.notice = false) : Tells c code c more := by
  cases h with
  | plainMessage => exact .message (.refl c) rfl (.inl rfl)
  | message hconnected => exact .message (.refl c) rfl (.inr (connected_iff.mp hconnected))
  | resumes hresumes => cases hresumes <;> exact .on (by simp [Code.notice])
  | callback hcallback => rcases hcallback with rfl | rfl <;> simp [Code.notice] at hcode
  | _ => exact .on (by simp [Code.notice])

theorem Sets.tells (h : Sets c code input c' more) : Tells c code c' more := by
  cases h with
  | readBlocked received =>
    split
    · rename_i hdeliver
      have hconnected := (Bool.and_eq_true_iff.mp hdeliver).2
      exact .message ⟨⟨rfl, id, .inl rfl, .inl⟩, rfl⟩ rfl (.inr (connected_iff.mp hconnected))
    · exact .still rfl ⟨rfl, id, .inl rfl, .inl⟩ (by simp)
  | readDone hresumes =>
    cases hresumes <;> exact .still rfl ⟨rfl, id, .inl rfl, .inl⟩ (by simp [Code.notice])
  | greets _ hopen hnew => exact .greets hnew rfl rfl hopen rfl rfl
  | handshaken _ hknown =>
    exact .still hknown.symm ⟨rfl, fun _ => rfl, .inl rfl, .inl⟩ (by simp [Code.notice])
  | _ => exact .still rfl ⟨rfl, id, .inl rfl, .inl⟩ (by simp)

theorem exec_tells (hexec : exec files c code input = some (c', more))
    (hcode : code = .handlePlainRead ∨ code.notice = false) : Tells c code c' more := by
  have hbehind : ∀ {pushed : List (Code Callback)} {last : Code Callback},
      Continues c c' ∧ (∀ other ∈ pushed, other.Calm) → last.notice = false →
      Tells c code c' (pushed ++ [last]) := by
    rintro pushed last ⟨hcontinues, hmore⟩ hlast
    refine .quietly hcontinues fun other hin => ?_
    rcases List.mem_append.mp hin with hin | hin
    · exact (hmore other hin).1
    · rwa [List.mem_singleton.mp hin]
  cases exec_does hexec with
  | leads hleads => exact hleads.tells hcode
  | sets hsets => exact hsets.tells
  | text text hsends =>
    obtain ⟨hcontinues, hmore⟩ := continues_sends hsends
    exact .quietly hcontinues fun other hin => (hmore other hin).1
  | header frame hsends => exact hbehind (continues_sends hsends) rfl
  | closes hopen => exact .closes rfl hopen rfl rfl rfl rfl
  | flushed | writesAll => exact .still rfl (steady_finish ⟨rfl, id, .inl rfl, .inl⟩) (by simp)
  | forces hopen => exact .still rfl ⟨rfl, id, .inr ⟨rfl, hopen⟩, fun _ => .inr rfl⟩ (by simp)
  | calls call calls => exact hbehind (call_called call).continues rfl
  | _ => exact .still rfl ⟨rfl, id, .inl rfl, .inl⟩ (by simp [Code.notice])

theorem wake_tells (hwake : wake c input = some (c', more)) (hnew : input ≠ .connectEstablished) :
    Continues c c' ∧ ((∀ other ∈ more, other.notice = false) ∨
      input = .readable ∧ c.tls = false ∧ more = [.handlePlainRead]) := by
  cases wake_wakes hwake with
  | call call hcalled =>
    exact ⟨hcalled.continues.1, .inl fun other hin => (hcalled.continues.2 other hin).1⟩
  | functor functor functors hfunctors hran =>
    have hfewer : Continues c { c with functors } :=
      ⟨⟨rfl, id, .inl rfl, fun hin => .inl (hfunctors ▸ List.mem_cons_of_mem _ hin)⟩, rfl⟩
    cases hran with
    | accepts _ _ haccepts =>
      obtain ⟨hcontinues, hmore⟩ := haccepts.continues
      exact ⟨hfewer.trans hcontinues, .inl fun other hin => (hmore other hin).1⟩
    | _ => exact ⟨hfewer, .inl (by simp [Code.notice])⟩
  | event harises =>
    cases harises with
    | plainRead hplain => exact ⟨.refl c, .inr ⟨rfl, hplain, rfl⟩⟩
    | write hresumes =>
      cases hresumes <;> exact ⟨.refl c, .inl (by simp [Code.notice])⟩
    | connectTls | connectKnown | connects => exact absurd rfl hnew
    | _ => exact ⟨⟨⟨rfl, id, .inl rfl, .inl⟩, rfl⟩, .inl (by simp [Code.notice])⟩

end Telling

end ChatRoom.Net
