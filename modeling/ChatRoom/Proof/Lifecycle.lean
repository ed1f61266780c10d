import ChatRoom.Server.Channel
import ChatRoom.Proof.Notices

/-!
# The phases of a connection

The application does not know of the connection, is about to be told that it is there, knows it, is
about to be told that it is gone, or has been told so. Every event keeps to this order.
-/

namespace ChatRoom.Net

open OutputLedger

variable {Callback Owner Outcome Task : Type}
variable {machine : Machine Callback Owner} {messages : Nat} {ready : List Readiness}

/-- No code on the stack calls the application. -/
def Quiet (stack : List (Code Callback)) : Prop := ∀ code ∈ stack, code.notice = false

/-- What the application has been told of a connection that is up. -/
def greeted (messages : Nat) : List Notice := .connection true :: List.replicate messages .message

/-- **The phases.** What the application has been told so far, the state of the connection that goes
with it, and the callbacks that are still on the stack. -/
inductive Phase (s : Life Callback Owner) : Prop where
  | silent (htold : s.told = []) (hnew : s.machine.conn.applicationEstablished = false)
      (hhandshake : s.machine.conn.tlsHandshakeComplete = false)
      (hfunctors : s.machine.conn.functors = [])
      (hstack : ∀ code ∈ s.machine.stack, code = .driveTlsHandshake ∨ code = .handleClose)
      (hstate : s.machine.conn.state ≠ .disconnecting)
      (hplain : s.machine.conn.tls = false → s.machine.conn.state = .connecting)
      (hyoung : s.machine.conn.state = .connecting → s.machine.stack = [] ∧ s.ready = [] ∧
        s.reading = false ∧ s.machine.conn.writing = false)
  | greeting (rest : List (Code Callback)) (htold : s.told = [])
      (hknown : s.machine.conn.applicationEstablished = true)
      (hstate : s.machine.conn.state = .connected)
      (hstack : s.machine.stack = .connectionCallback :: rest) (hquiet : Quiet rest)
  | present (messages : Nat) (front rest : List (Code Callback)) (htold : s.told = greeted messages)
      (hknown : s.machine.conn.applicationEstablished = true)
      (hstate : s.machine.conn.state = .connected ∨ s.machine.conn.state = .disconnecting)
      (hstack : s.machine.stack = front ++ rest)
      (hfront : front = [] ∨ front = [.messageCallback] ∨ front = [.handlePlainRead])
      (hquiet : Quiet rest)
  | parting (messages : Nat) (rest : List (Code Callback)) (htold : s.told = greeted messages)
      (hknown : s.machine.conn.applicationEstablished = true)
      (hstate : s.machine.conn.state = .disconnected)
      (hstack : s.machine.stack = .connectionCallback :: rest) (hquiet : Quiet rest)
  | gone (messages : Nat) (htold : s.told = greeted messages ++ [.connection false])
      (hknown : s.machine.conn.applicationEstablished = true)
      (hstate : s.machine.conn.state = .disconnected) (hquiet : Quiet s.machine.stack)

/-- **The invariant of a life.** The phase, one close callback at most, and no read of a plain
connection that is closed. -/
structure Alive (s : Life Callback Owner) : Prop where
  phase : Phase s
  closes : s.closeCallbacks ≤ 1
  unclosed : s.machine.conn.state ≠ .disconnected → s.closeCallbacks = 0
  disabled : s.machine.conn.tls = false → s.machine.conn.state = .disconnected → s.reading = false
  readFirst : .read ∈ s.ready → s.machine.stack = [] ∧
    (s.machine.conn.tls = false → s.machine.conn.state ≠ .disconnected)
  sorted : s.ready = [.close] ∨ s.ready.Sublist [.error, .read, .write]
  destroyed : s.destroyed = true →
    s.machine.conn.state = .disconnected ∨ s.machine.conn.state = .connecting

section Steps

variable {files : Bytes → Bytes} {user : User Callback Owner Outcome Task}
  {s s' : Life Callback Owner} {c c' : TcpConnection Callback} {code : Code Callback}
  {more rest : List (Code Callback)} {input : Input Callback Outcome Task}

theorem Quiet.append {first second : List (Code Callback)} (hfirst : Quiet first)
    (hsecond : Quiet second) : Quiet (first ++ second) := by
  intro code hin
  rcases List.mem_append.mp hin with hin | hin
  · exact hfirst code hin
  · exact hsecond code hin

theorem Quiet.cons (hcode : code.notice = false) (hrest : Quiet rest) : Quiet (code :: rest) := by
  intro other hin
  rcases List.mem_cons.mp hin with rfl | hin
  · exact hcode
  · exact hrest other hin

theorem Quiet.tail (h : Quiet (code :: rest)) : Quiet rest :=
  fun other hin => h other (List.mem_cons_of_mem code hin)

theorem quiet_silent (h : ∀ code ∈ rest, code = .driveTlsHandshake ∨ code = .handleClose) :
    Quiet rest := by
  intro code hin
  rcases h code hin with rfl | rfl <;> rfl

theorem driveTlsHandshake_cases (h : c.driveTlsHandshake input = some (c', more))
    (hnew : c.applicationEstablished = false) :
    (c.state ≠ .disconnected ∧ c'.state = c.state ∧ c'.applicationEstablished = true ∧
        more = [.connectionCallback, .afterEstablished]) ∨
      c'.state = c.state ∧ c'.applicationEstablished = false ∧
        c'.tlsHandshakeComplete = c.tlsHandshakeComplete ∧ c'.functors = c.functors ∧
        c'.tls = c.tls ∧ (more = [] ∨ more = [.handleClose]) := by
  unfold TcpConnection.driveTlsHandshake at h
  split at h
  · obtain ⟨rfl, rfl⟩ := proceed_pair h
    exact .inr ⟨rfl, hnew, rfl, rfl, rfl, .inl rfl⟩
  rename_i hrunning
  simp only [not_or] at hrunning
  cases input with
  | handshaken =>
    dsimp only at h
    cases h
    unfold TcpConnection.notifyApplicationEstablished TcpConnection.stopWritingIfIdle
    split <;> simp [hnew, hrunning.2.2]
  | wantRead =>
    cases h
    unfold TcpConnection.stopWritingIfIdle
    split <;> exact .inr ⟨rfl, hnew, rfl, rfl, rfl, .inl rfl⟩
  | wantWrite =>
    cases h
    exact .inr ⟨rfl, hnew, rfl, rfl, rfl, .inl rfl⟩
  | endOfStream | interrupted | failed =>
    cases h
    exact .inr ⟨rfl, hnew, rfl, rfl, rfl, .inr rfl⟩
  | _ => cases h

theorem phase_continues (front : List (Code Callback)) (htold : s'.told = greeted messages)
    (hknown : c.applicationEstablished = true)
    (hstate : c.state = .connected ∨ c.state = .disconnecting)
    (hcontinues : Continues c s'.machine.conn) (hstack : s'.machine.stack = front ++ rest)
    (hfront : front = [] ∨ front = [.messageCallback] ∨ front = [.handlePlainRead])
    (hquiet : Quiet rest) : Phase s' := by
  refine .present messages front rest htold (hcontinues.established.trans hknown) ?_ hstack hfront hquiet
  rcases hcontinues.state with hsame | ⟨hdown, -⟩
  · rwa [hsame]
  · exact .inr hdown

/-- A step of a connection that the application knows. -/
theorem phase_present (htold : s.told = greeted messages) (hknown : c.applicationEstablished = true)
    (hstate : c.state = .connected ∨ c.state = .disconnecting) (hquiet : Quiet rest)
    (htells : Tells c code s'.machine.conn more) (htold' : s'.told = s.told)
    (hstack' : s'.machine.stack = more ++ rest) : Phase s' := by
  cases htells with
  | quietly hcontinues hmore =>
    exact phase_continues [] (htold'.trans htold) hknown hstate hcontinues hstack' (.inl rfl)
      (Quiet.append hmore hquiet)
  | message hcontinues hmore hwhen =>
    exact phase_continues more (htold'.trans htold) hknown hstate hcontinues hstack' (.inr (.inl hmore))
      hquiet
  | greets hbefore => cases hknown.symm.trans hbefore
  | closes hcode hopen hdown hestablished htls hmore =>
    rw [hknown, if_pos rfl] at hmore
    rw [hmore] at hstack'
    exact .parting messages rest (htold'.trans htold) (hestablished.trans hknown) hdown hstack' hquiet

/-- A step of a connection whose end the application has been told. -/
theorem phase_gone (htold : s.told = greeted messages ++ [.connection false])
    (hknown : c.applicationEstablished = true) (hstate : c.state = .disconnected)
    (hcode : code.notice = false) (hquiet : Quiet rest) (htells : Tells c code s'.machine.conn more)
    (htold' : s'.told = s.told) (hstack' : s'.machine.stack = more ++ rest) : Phase s' := by
  cases htells with
  | quietly hcontinues hmore =>
    refine .gone messages (htold'.trans htold) (hcontinues.established.trans hknown) ?_ ?_
    · rcases hcontinues.state with hsame | ⟨-, hopen⟩
      · exact hsame.trans hstate
      · rw [hstate] at hopen
        simp at hopen
    · rw [hstack']
      exact Quiet.append hmore hquiet
  | message hcontinues hmore hwhen =>
    rcases hwhen with rfl | hconnected
    · cases hcode
    · cases hstate.symm.trans hconnected
  | greets _ _ _ hopen => exact absurd hstate hopen
  | closes _ hopen => exact absurd hstate hopen

theorem handleClose_silent (hnew : c.applicationEstablished = false) :
    c.handleClose.1.state = .disconnected ∧ c.handleClose.1.applicationEstablished = false ∧
      c.handleClose.1.tlsHandshakeComplete = c.tlsHandshakeComplete ∧
      c.handleClose.1.functors = c.functors ∧ c.handleClose.1.tls = c.tls ∧ c.handleClose.2 = [] := by
  unfold TcpConnection.handleClose
  split
  · exact ⟨‹_›, hnew, rfl, rfl, rfl, rfl⟩
  · exact ⟨rfl, hnew, rfl, rfl, rfl, by simp [hnew]⟩

/-- A step of the handshake, before the application has been told anything. -/
theorem phase_silent (htold : s.told = []) (hnew : s.machine.conn.applicationEstablished = false)
    (hhandshake : s.machine.conn.tlsHandshakeComplete = false)
    (hfunctors : s.machine.conn.functors = [])
    (hcodes : ∀ code ∈ s.machine.stack, code = .driveTlsHandshake ∨ code = .handleClose)
    (hstate : s.machine.conn.state ≠ .disconnecting) (hold : s.machine.conn.state ≠ .connecting)
    (hsecure : s.machine.conn.tls = true) (hstack : s.machine.stack = code :: rest)
    (hexec : exec files s.machine.conn code input = some (c', more)) (htold' : s'.told = s.told)
    (hconn' : s'.machine.conn = c') (hstack' : s'.machine.stack = more ++ rest) : Phase s' := by
  rw [hstack] at hcodes
  have hrest : ∀ code ∈ rest, code = .driveTlsHandshake ∨ code = .handleClose :=
    fun other hin => hcodes other (List.mem_cons_of_mem code hin)
  -- nothing has happened, or the connection is closed
  have hsilent : s'.machine.conn.state = s.machine.conn.state ∨ s'.machine.conn.state = .disconnected →
      s'.machine.conn.applicationEstablished = false →
      s'.machine.conn.tlsHandshakeComplete = s.machine.conn.tlsHandshakeComplete →
      s'.machine.conn.functors = s.machine.conn.functors →
      s'.machine.conn.tls = s.machine.conn.tls → (more = [] ∨ more = [.handleClose]) → Phase s' := by
    intro hstate' hnew' hhandshake' hfunctors' htls' hmore
    have hold' : s'.machine.conn.state ≠ .connecting := by
      rcases hstate' with hsame | hdown
      · rwa [hsame]
      · simp [hdown]
    refine .silent (htold'.trans htold) hnew' (hhandshake'.trans hhandshake)
      (hfunctors'.trans hfunctors) ?_ ?_ ?_ fun h => absurd h hold'
    · rw [hstack']
      rcases hmore with rfl | rfl
      · exact hrest
      · exact fun other hin => (List.mem_cons.mp hin).elim .inr (hrest other)
    · rcases hstate' with hsame | hdown
      · rwa [hsame]
      · simp [hdown]
    · intro hplain
      cases (htls'.trans hsecure).symm.trans hplain
  rcases hcodes code List.mem_cons_self with rfl | rfl
  · rcases driveTlsHandshake_cases hexec hnew with
      ⟨hopen, hsame, hknown, rfl⟩ | ⟨hsame, hstill, hincomplete, hqueue, htls, hmore⟩
    · refine .greeting (.afterEstablished :: rest) (htold'.trans htold) (by rwa [hconn']) ?_ hstack' ?_
      · rw [hconn', hsame]
        cases hcase : s.machine.conn.state with
        | connected => rfl
        | connecting => exact absurd hcase hold
        | disconnecting => exact absurd hcase hstate
        | disconnected => exact absurd hcase hopen
      · exact Quiet.cons rfl (quiet_silent hrest)
    · subst hconn'
      exact hsilent (.inl hsame) hstill hincomplete hqueue htls hmore
  · obtain ⟨rfl, rfl⟩ := proceed_pair hexec
    obtain ⟨hdown, hstill, hincomplete, hqueue, htls, hmore⟩ := handleClose_silent hnew
    rw [← hconn'] at hdown hstill hincomplete hqueue htls
    exact hsilent (.inr hdown) hstill hincomplete hqueue htls (.inl hmore)

theorem observe_told (hmessage : code ≠ .messageCallback) (hconnection : code ≠ .connectionCallback) :
    (s.observe code).told = s.told := by
  cases code with
  | messageCallback => exact absurd rfl hmessage
  | connectionCallback => exact absurd rfl hconnection
  | handleClose =>
    unfold Life.observe
    dsimp only
    split <;> rfl
  | _ => rfl

theorem greeted_succ (messages : Nat) : greeted messages ++ [.message] = greeted (messages + 1) := by
  rw [greeted, greeted, List.cons_append, ← List.replicate_succ']

/-- The code on top of the stack runs. -/
theorem Phase.exec (h : Phase s) (hstack : s.machine.stack = code :: rest)
    (hexec : Net.exec files s.machine.conn code input = some (c', more))
    (htold' : s'.told = (s.observe code).told) (hconn' : s'.machine.conn = c')
    (hstack' : s'.machine.stack = more ++ rest) : Phase s' := by
  have htells : code = .handlePlainRead ∨ code.notice = false →
      Tells s.machine.conn code s'.machine.conn more := by
    rw [hconn']
    exact exec_tells hexec
  cases h with
  | silent htold hnew hhandshake hfunctors hcodes hstate hplain hyoung =>
    have hold : s.machine.conn.state ≠ .connecting := by
      intro hconnecting
      cases hstack.symm.trans (hyoung hconnecting).1
    have hsecure : s.machine.conn.tls = true := by
      by_contra hplain'
      exact hold (hplain (Bool.eq_false_of_not_eq_true hplain'))
    have hcode := hcodes code (hstack ▸ List.mem_cons_self)
    rw [observe_told (by rcases hcode with rfl | rfl <;> nofun)
      (by rcases hcode with rfl | rfl <;> nofun)] at htold'
    exact phase_silent htold hnew hhandshake hfunctors hcodes hstate hold hsecure hstack hexec htold'
      hconn' hstack'
  | greeting rest' htold hknown hstate hstack₀ hquiet =>
    obtain ⟨rfl, rfl⟩ := List.cons.inj (hstack.symm.trans hstack₀)
    cases input <;> cases hexec
    refine .present 0 [] _ ?_ (by rwa [hconn']) (by rw [hconn']; exact .inl hstate) hstack' (.inl rfl)
      (Quiet.cons rfl hquiet)
    rw [htold']
    simp [Life.observe, htold, greeted, connected_iff.mpr hstate]
  | present messages front rest' htold hknown hstate hstack₀ hfront hquiet =>
    rcases hfront with rfl | rfl | rfl
    · obtain rfl : code :: rest = rest' := hstack.symm.trans hstack₀
      have hcode := hquiet code List.mem_cons_self
      rw [observe_told (by rintro rfl; cases hcode) (by rintro rfl; cases hcode)] at htold'
      exact phase_present htold hknown hstate hquiet.tail (htells (.inr hcode)) htold' hstack'
    · obtain ⟨rfl, rfl⟩ := List.cons.inj (hstack.symm.trans hstack₀)
      cases input <;> cases hexec
      refine .present (messages + 1) [] _ ?_ (by rwa [hconn']) (by rwa [hconn']) hstack' (.inl rfl)
        (Quiet.cons rfl hquiet)
      rw [htold', ← greeted_succ, ← htold]
      rfl
    · obtain ⟨rfl, rfl⟩ := List.cons.inj (hstack.symm.trans hstack₀)
      exact phase_present htold hknown hstate hquiet (htells (.inl rfl)) htold' hstack'
  | parting messages rest' htold hknown hstate hstack₀ hquiet =>
    obtain ⟨rfl, rfl⟩ := List.cons.inj (hstack.symm.trans hstack₀)
    cases input <;> cases hexec
    refine .gone messages ?_ (by rwa [hconn']) (by rwa [hconn']) ?_
    · rw [htold', ← htold]
      have hdown : s.machine.conn.connected = false := by simp [TcpConnection.connected, hstate]
      simp [Life.observe, hdown]
    · rw [hstack']
      exact Quiet.cons rfl hquiet
  | gone messages htold hknown hstate hquiet =>
    rw [hstack] at hquiet
    have hcode := hquiet code List.mem_cons_self
    rw [observe_told (by rintro rfl; cases hcode) (by rintro rfl; cases hcode)] at htold'
    exact phase_gone htold hknown hstate hcode hquiet.tail (htells (.inr hcode)) htold' hstack'

theorem Phase.complete (h : Phase s) {unit : Numbered (Output Callback)}
    (hstack : s.machine.stack = .completion unit :: rest) (hmore : Quiet more)
    (htold' : s'.told = s.told) (hconn' : s'.machine.conn = s.machine.conn)
    (hstack' : s'.machine.stack = more ++ rest) : Phase s' := by
  cases h with
  | silent htold hnew hhandshake hfunctors hcodes hstate hplain hyoung =>
    have hcode := hcodes (.completion unit) (hstack ▸ List.mem_cons_self)
    simp at hcode
  | greeting rest' htold hknown hstate hstack₀ hquiet => cases hstack.symm.trans hstack₀
  | present messages front rest' htold hknown hstate hstack₀ hfront hquiet =>
    rcases hfront with rfl | rfl | rfl
    · obtain rfl : _ = rest' := hstack.symm.trans hstack₀
      refine phase_continues [] (htold'.trans htold) hknown hstate ?_ hstack' (.inl rfl)
        (hmore.append hquiet.tail)
      rw [hconn']
      exact .refl _
    · cases hstack.symm.trans hstack₀
    · cases hstack.symm.trans hstack₀
  | parting messages rest' htold hknown hstate hstack₀ hquiet => cases hstack.symm.trans hstack₀
  | gone messages htold hknown hstate hquiet =>
    rw [hstack] at hquiet
    refine .gone messages (htold'.trans htold) (by rwa [hconn']) (by rwa [hconn']) ?_
    rw [hstack']
    exact hmore.append hquiet.tail

/-- A connection with an empty stack wakes. -/
theorem Phase.wake (h : Phase s) (hidle : s.machine.stack = [])
    (hwake : Net.wake s.machine.conn input = some (c', more))
    (hevent : input = .readable ∨ input = .writable ∨ input = .hangup ∨ input = .functor ∨
      s.told ≠ [])
    (hnew : input ≠ .connectEstablished)
    (hyoung : s.machine.conn.state = .connecting → input = .functor)
    (hread : input = .readable → s.machine.conn.tls = false → s.machine.conn.state ≠ .disconnected)
    (htold' : s'.told = s.told) (hconn' : s'.machine.conn = c') (hstack' : s'.machine.stack = more) :
    Phase s' := by
  obtain ⟨hcontinues, hmore⟩ := wake_tells hwake hnew
  rw [← hconn'] at hcontinues
  cases h with
  | silent htold hnew hhandshake hfunctors hcodes hstate hplain hyoung' =>
    have hold : s.machine.conn.state ≠ .connecting → Phase s' := by
      intro hold
      have hsecure : s.machine.conn.tls = true := by
        by_contra hplain'
        exact hold (hplain (Bool.eq_false_of_not_eq_true hplain'))
      have hstarts : (∀ code ∈ more, code = .driveTlsHandshake ∨ code = .handleClose) ∧
          c' = s.machine.conn := by
        rcases hevent with rfl | rfl | rfl | rfl | htold'
        · obtain ⟨rfl, rfl⟩ := some_pair hwake
          simp [TcpConnection.handleRead, hsecure, hhandshake]
        · obtain ⟨rfl, rfl⟩ := some_pair hwake
          simp [TcpConnection.handleWrite, hsecure, hhandshake]
        · obtain ⟨rfl, rfl⟩ := some_pair hwake
          simp
        · simp [Net.wake, hfunctors] at hwake
        · exact absurd htold htold'
      have hsame := hconn'.trans hstarts.2
      refine .silent (htold'.trans htold) (by rwa [hsame]) (by rwa [hsame]) (by rwa [hsame])
        (hstack' ▸ hstarts.1) (by rwa [hsame]) (by rwa [hsame]) fun h => absurd (hsame ▸ h) hold
    by_cases hconnecting : s.machine.conn.state = .connecting
    · have hfunctor := hyoung hconnecting
      subst hfunctor
      simp [Net.wake, hfunctors] at hwake
    · exact hold hconnecting
  | greeting rest' htold hknown hstate hstack₀ hquiet => cases hidle.symm.trans hstack₀
  | present messages front rest' htold hknown hstate hstack₀ hfront hquiet =>
    rcases hmore with hmore | ⟨-, -, hmore⟩
    · exact phase_continues [] (htold'.trans htold) hknown hstate hcontinues hstack' (.inl rfl) hmore
    · exact phase_continues [.handlePlainRead] (htold'.trans htold) hknown hstate hcontinues
        (hstack'.trans hmore) (.inr (.inr rfl)) (by simp [Quiet])
  | parting messages rest' htold hknown hstate hstack₀ hquiet => cases hidle.symm.trans hstack₀
  | gone messages htold hknown hstate hquiet =>
    rcases hmore with hmore | ⟨rfl, hplain, -⟩
    · refine .gone messages (htold'.trans htold) (hcontinues.established.trans hknown) ?_ (hstack' ▸ hmore)
      rcases hcontinues.state with hsame | ⟨-, hopen⟩
      · exact hsame.trans hstate
      · simp [hstate] at hopen
    · exact absurd hstate (hread rfl hplain)

/-! ### Whole lives -/

/-- A connection before `connectEstablished`. -/
structure Young (s : Life Callback Owner) : Prop where
  told : s.told = []
  new : s.machine.conn.applicationEstablished = false
  handshake : s.machine.conn.tlsHandshakeComplete = false
  functors : s.machine.conn.functors = []
  stack : s.machine.stack = []
  ready : s.ready = []
  reading : s.reading = false
  writing : s.machine.conn.writing = false

theorem Phase.young (h : Phase s) (hyoung : s.machine.conn.state = .connecting) : Young s := by
  cases h with
  | silent htold hnew hhandshake hfunctors _ _ _ hrest =>
    obtain ⟨hstack, hready, hreading, hwriting⟩ := hrest hyoung
    exact ⟨htold, hnew, hhandshake, hfunctors, hstack, hready, hreading, hwriting⟩
  | greeting _ _ _ hstate => cases hyoung.symm.trans hstate
  | present _ _ _ _ _ hstate => rcases hstate with hstate | hstate <;> cases hyoung.symm.trans hstate
  | parting _ _ _ _ hstate => cases hyoung.symm.trans hstate
  | gone _ _ _ hstate => cases hyoung.symm.trans hstate

theorem Phase.same (h : Phase s) (htold' : s'.told = s.told) (hmachine' : s'.machine = s.machine)
    (hyoung' : s.machine.conn.state = .connecting → s'.ready = [] ∧ s'.reading = false) :
    Phase s' := by
  cases h with
  | silent htold hnew hhandshake hfunctors hcodes hstate hplain hyoung =>
    refine .silent (htold'.trans htold) ?_ ?_ ?_ ?_ ?_ ?_ ?_ <;> rw [hmachine']
    · exact hnew
    · exact hhandshake
    · exact hfunctors
    · exact hcodes
    · exact hstate
    · exact hplain
    · intro hconnecting
      obtain ⟨hstack, -, -, hwriting⟩ := hyoung hconnecting
      obtain ⟨hready, hreading⟩ := hyoung' hconnecting
      exact ⟨hstack, hready, hreading, hwriting⟩
  | greeting rest htold hknown hstate hstack hquiet =>
    exact .greeting rest (htold'.trans htold) (hmachine' ▸ hknown) (hmachine' ▸ hstate)
      (hmachine' ▸ hstack) hquiet
  | present messages front rest htold hknown hstate hstack hfront hquiet =>
    exact .present messages front rest (htold'.trans htold) (hmachine' ▸ hknown) (hmachine' ▸ hstate)
      (hmachine' ▸ hstack) hfront hquiet
  | parting messages rest htold hknown hstate hstack hquiet =>
    exact .parting messages rest (htold'.trans htold) (hmachine' ▸ hknown) (hmachine' ▸ hstate)
      (hmachine' ▸ hstack) hquiet
  | gone messages htold hknown hstate hquiet =>
    exact .gone messages (htold'.trans htold) (hmachine' ▸ hknown) (hmachine' ▸ hstate)
      (hmachine' ▸ hquiet)

theorem Continues.closed (h : Continues c c') :
    c'.state = .disconnected ↔ c.state = .disconnected := by
  rcases h.state with hsame | ⟨hdown, hopen⟩
  · rw [hsame]
  · rw [hdown]
    rcases hopen with hopen | hopen <;> simp [hopen]

theorem Phase.posted (h : Phase s) (htold : s.told ≠ [])
    (hcontinues : Continues s.machine.conn s'.machine.conn) (htold' : s'.told = s.told)
    (hstack' : s'.machine.stack = s.machine.stack) : Phase s' := by
  cases h with
  | silent hnone => exact absurd hnone htold
  | greeting _ hnone => exact absurd hnone htold
  | present messages front rest htold hknown hstate hstack hfront hquiet =>
    exact phase_continues front (htold'.trans htold) hknown hstate hcontinues (hstack'.trans hstack)
      hfront hquiet
  | parting messages rest htold hknown hstate hstack hquiet =>
    exact .parting messages rest (htold'.trans htold) (hcontinues.established.trans hknown)
      (hcontinues.closed.mpr hstate) (hstack'.trans hstack) hquiet
  | gone messages htold hknown hstate hquiet =>
    exact .gone messages (htold'.trans htold) (hcontinues.established.trans hknown)
      (hcontinues.closed.mpr hstate) (hstack' ▸ hquiet)

theorem Alive.continues (h : Alive s) (hphase : Phase s')
    (hcontinues : Continues s.machine.conn s'.machine.conn)
    (hcloses : s'.closeCallbacks = s.closeCallbacks) (hreading : s'.reading = s.reading)
    (hready : .read ∈ s'.ready → s'.machine.stack = [] ∧
      (s'.machine.conn.tls = false → s'.machine.conn.state ≠ .disconnected))
    (hsorted : s'.ready = [.close] ∨ s'.ready.Sublist [.error, .read, .write])
    (hdestroyed : s'.destroyed = s.destroyed) : Alive s' := by
  refine ⟨hphase, hcloses ▸ h.closes, ?_, ?_, hready, hsorted, ?_⟩
  · rw [hcloses, ne_eq, hcontinues.closed]
    exact h.unclosed
  · rw [hcontinues.tls, hcontinues.closed, hreading]
    exact h.disabled
  · intro hgone
    rcases h.destroyed (hdestroyed ▸ hgone) with hdown | hyoung
    · exact .inl (hcontinues.closed.mpr hdown)
    · rcases hcontinues.state with hsame | ⟨-, hopen⟩
      · exact .inr (hsame.trans hyoung)
      · simp [hyoung] at hopen

theorem idle_iff : s.idle = true ↔ s.machine.stack = [] ∧ s.ready = [] := by
  simp [Life.idle]

theorem Alive.wake (h : Alive s) (hidle : s.machine.stack = [])
    (hnext : s.machine.next files user input = some machine) (hexternal : input.internal = true)
    (hevent : input = .readable ∨ input = .writable ∨ input = .hangup ∨ input = .functor ∨
      s.told ≠ [])
    (hnew : input ≠ .connectEstablished)
    (hyoung : s.machine.conn.state = .connecting → input = .functor)
    (hread : input = .readable → s.machine.conn.tls = false → s.machine.conn.state ≠ .disconnected)
    (hlast : .read ∉ ready) (hsorted : ready = [.close] ∨ ready.Sublist [.error, .read, .write]) :
    Alive { s with machine, ready } := by
  cases Machine.next_cases hnext with
  | post | background => cases hexternal
  | wake _ c more _ hwake =>
    refine h.continues ?_ (wake_tells hwake hnew).1 rfl rfl (fun hin => absurd hin hlast) hsorted rfl
    exact h.phase.wake hidle hwake hevent hnew hyoung hread rfl rfl rfl
  | complete _ unit rest _ hstack => cases hidle.symm.trans hstack
  | exec _ code rest more c hstack => cases hidle.symm.trans hstack

theorem connectEstablished_cases (hnew : c.applicationEstablished = false) :
    (c.tls = true ∧ c.connectEstablished = ({ c with state := .connected }, [.driveTlsHandshake])) ∨
      c.tls = false ∧ c.connectEstablished =
        ({ c with state := .connected, applicationEstablished := true }, [.connectionCallback]) := by
  unfold TcpConnection.connectEstablished TcpConnection.notifyApplicationEstablished
  cases c.tls <;> simp [hnew]

theorem Alive.connectEstablished (h : Alive s) (hidle : s.machine.stack = [])
    (hready : s.ready = []) (halive : s.destroyed = false)
    (hnext : s.machine.next files user .connectEstablished = some machine) :
    Alive { s with machine, reading := true } := by
  cases Machine.next_cases hnext with
  | wake _ c more _ hwake =>
    simp only [Net.wake] at hwake
    split at hwake
    case isFalse => cases hwake
    rename_i hyoung
    have hwake := Option.some.inj hwake
    have hup : c.state = .connected → Phase { s with
        machine := { s.machine with conn := c, stack := more }, reading := true } →
        Alive { s with machine := { s.machine with conn := c, stack := more }, reading := true } := by
      intro hstate hphase
      refine ⟨hphase, h.closes, fun _ => h.unclosed (by simp [hyoung]), ?_, ?_, h.sorted, ?_⟩
      · exact fun _ hdown => by cases hstate.symm.trans hdown
      · simp [hready]
      · simp [halive]
    have hfresh := h.phase.young hyoung
    rcases connectEstablished_cases hfresh.new with ⟨htls, heq⟩ | ⟨htls, heq⟩
    · obtain ⟨rfl, rfl⟩ := Prod.mk.inj (heq.symm.trans hwake)
      refine hup rfl (.silent hfresh.told hfresh.new hfresh.handshake hfresh.functors (by simp)
        (by simp) ?_ (by simp))
      simp [htls]
    · obtain ⟨rfl, rfl⟩ := Prod.mk.inj (heq.symm.trans hwake)
      exact hup rfl (.greeting [] hfresh.told rfl rfl rfl (by simp [Quiet]))
  | complete _ unit rest _ hstack => cases hidle.symm.trans hstack
  | exec _ code rest more c hstack => cases hidle.symm.trans hstack

theorem Alive.connectDestroyed (h : Alive s) (hidle : s.machine.stack = []) (hready : s.ready = []) :
    Alive s.connectDestroyed := by
  unfold Life.connectDestroyed
  dsimp only
  split
  · rename_i hopen
    have hup : s.machine.conn.state ≠ .connecting ∧ s.machine.conn.state ≠ .disconnected := by
      rcases hopen with hopen | hopen <;> simp [hopen]
    refine ⟨?_, h.closes, nofun, fun _ _ => rfl, by simp [hready], h.sorted, fun _ => .inl rfl⟩
    cases h.phase with
    | silent htold hnew hhandshake hfunctors hcodes hstate hplain hyoung =>
      exact .silent htold hnew hhandshake hfunctors (by simp [hnew]) nofun
        (fun htls => absurd (hplain htls) hup.1) nofun
    | greeting rest htold hknown hstate hstack => cases hidle.symm.trans hstack
    | present messages front rest htold hknown hstate hstack hfront hquiet =>
      exact .parting messages [] htold hknown rfl (by simp [hknown]) nofun
    | parting messages rest htold hknown hstate => exact absurd hstate hup.2
    | gone messages htold hknown hstate => exact absurd hstate hup.2
  · rename_i hclosed
    rw [not_or] at hclosed
    refine ⟨h.phase.same rfl rfl fun hyoung => ⟨hready, (h.phase.young hyoung).reading⟩, h.closes,
      h.unclosed, h.disabled, h.readFirst, h.sorted, fun _ => ?_⟩
    · cases hstate : s.machine.conn.state with
      | disconnected => exact .inl rfl
      | connecting => exact .inr rfl
      | connected => exact absurd hstate hclosed.1
      | disconnecting => exact absurd hstate hclosed.2

theorem observe_closes (hcode : code ≠ .handleClose ∨ s.machine.conn.state = .disconnected) :
    (s.observe code).closeCallbacks = s.closeCallbacks ∧ (s.observe code).reading = s.reading := by
  cases code with
  | handleClose =>
    unfold Life.observe
    rcases hcode with hcode | hclosed
    · exact absurd rfl hcode
    · simp [hclosed]
  | _ => exact ⟨rfl, rfl⟩

theorem observe_handleClose (hopen : s.machine.conn.state ≠ .disconnected) :
    (s.observe .handleClose).closeCallbacks = s.closeCallbacks + 1 ∧
      (s.observe .handleClose).reading = false := by
  simp [Life.observe, hopen]

theorem observe_rest : (s.observe code).ready = s.ready ∧ (s.observe code).destroyed = s.destroyed := by
  cases code with
  | handleClose =>
    unfold Life.observe
    dsimp only
    split <;> exact ⟨rfl, rfl⟩
  | _ => exact ⟨rfl, rfl⟩

theorem plain_asksToRead (hexec : exec files c code input = some (c', more)) (hplain : c.tls = false) :
    code.asksToRead input = false := by
  cases code with
  | driveTlsHandshake =>
    cases input with
    | wantRead => simp [exec, TcpConnection.driveTlsHandshake, hplain, Input.proceed] at hexec
    | _ => rfl
  | flushTlsOutput =>
    cases input with
    | wantRead => simp [exec, TcpConnection.flushTlsOutput, hplain, Input.proceed] at hexec
    | _ => rfl
  | sendFileBytes =>
    cases input with
    | wantRead =>
      simp only [exec, TcpConnection.sendFileBytes, hplain] at hexec
      split at hexec
      · cases hexec
      · split at hexec
        · cases hexec
        · split at hexec
          · cases hexec
          · simp at hexec
    | _ => rfl
  | _ => cases input <;> rfl

theorem Alive.exec (h : Alive s) (hstack : s.machine.stack = code :: rest)
    (hexec : Net.exec files s.machine.conn code input = some (c', more)) :
    Alive { s.observe code with
      machine := { s.machine with conn := c', stack := more ++ rest }
      reading := (s.observe code).reading || code.asksToRead input } := by
  have hturn := exec_turn hexec
  have hold : s.machine.conn.state ≠ .connecting := by
    intro hyoung
    cases hstack.symm.trans (h.phase.young hyoung).stack
  have hquick : .read ∉ s.ready := fun hin => by cases hstack.symm.trans (h.readFirst hin).1
  refine ⟨h.phase.exec hstack hexec rfl rfl rfl, ?_, ?_, ?_, ?_, ?_, ?_⟩
  · by_cases hcloses : code = .handleClose ∧ s.machine.conn.state ≠ .disconnected
    · obtain ⟨rfl, hopen⟩ := hcloses
      rw [(observe_handleClose hopen).1, h.unclosed hopen]
    · rw [not_and_or, not_not] at hcloses
      rw [(observe_closes hcloses).1]
      exact h.closes
  · intro hopen'
    have hopen : s.machine.conn.state ≠ .disconnected := fun hdown => hopen' (hturn.stays hdown)
    have hcode : code ≠ .handleClose := by
      rintro rfl
      obtain ⟨rfl, rfl⟩ := proceed_pair hexec
      simp [TcpConnection.handleClose, hopen] at hopen'
    rw [(observe_closes (.inl hcode)).1]
    exact h.unclosed hopen
  · intro hplain' hdown
    have hplain : s.machine.conn.tls = false := (exec_frame hexec).tls ▸ hplain'
    rw [plain_asksToRead hexec hplain, Bool.or_false]
    by_cases hopen : s.machine.conn.state = .disconnected
    · rw [(observe_closes (.inr hopen)).2]
      exact h.disabled hplain hopen
    · obtain rfl := (hturn.state hdown).resolve_left hopen
      exact (observe_handleClose hopen).2
  · rw [observe_rest.1]
    exact fun hin => absurd hin hquick
  · rw [observe_rest.1]
    exact h.sorted
  · rw [observe_rest.2]
    intro hdestroyed
    exact .inl (hturn.stays ((h.destroyed hdestroyed).resolve_right hold))

theorem Alive.complete (h : Alive s) {unit : Numbered (Output Callback)}
    (hstack : s.machine.stack = .completion unit :: rest)
    (hcomplete : s.machine.complete user unit rest input = some machine) :
    Alive { s with machine } := by
  obtain ⟨more, hmore, hconn, hstack'⟩ := Machine.complete_cases hcomplete
  have hquiet : Quiet more := by
    rcases hmore with rfl | ⟨calls, rfl⟩
    · exact nofun
    · exact Quiet.cons rfl nofun
  refine h.continues (h.phase.complete hstack hquiet rfl hconn hstack') ?_ rfl rfl ?_ h.sorted rfl
  · rw [hconn]
    exact .refl _
  · intro hin
    cases hstack.symm.trans (h.readFirst hin).1

theorem Alive.posted (h : Alive s) (htold : s.told ≠ [])
    (hcontinues : Continues s.machine.conn machine.conn) (hstack : machine.stack = s.machine.stack) :
    Alive { s with machine } := by
  refine h.continues (h.phase.posted htold hcontinues rfl hstack) hcontinues rfl rfl (fun hin => ?_)
    h.sorted rfl
  obtain ⟨hidle, hopen⟩ := h.readFirst hin
  refine ⟨hstack.trans hidle, fun hplain => ?_⟩
  rw [ne_eq, hcontinues.closed]
  exact hopen (hcontinues.tls.symm.trans hplain)

theorem read_mem_callbacks {revents : Revents} (h : .read ∈ revents.callbacks) :
    (revents.input || revents.rdhup) = true := by
  unfold Revents.callbacks at h
  split at h
  · simp at h
  · simp only [List.mem_append] at h
    rcases h with (h | h) | h <;> split at h <;> simp_all

theorem callbacks_sorted (revents : Revents) :
    revents.callbacks = [.close] ∨ revents.callbacks.Sublist [.error, .read, .write] := by
  unfold Revents.callbacks
  split
  · exact .inl rfl
  · right
    split <;> split <;> split <;> decide

theorem Alive.poll (h : Alive s) {revents : Revents} (hidle : s.machine.stack = [])
    (hreports : s.Reports revents) : Alive { s with ready := revents.callbacks } := by
  obtain ⟨hread, -, hregistered⟩ := hreports
  have hold : s.machine.conn.state ≠ .connecting := by
    intro hyoung
    have hfresh := h.phase.young hyoung
    simp [hfresh.reading, hfresh.writing] at hregistered
  refine ⟨h.phase.same rfl rfl fun hyoung => absurd hyoung hold, h.closes, h.unclosed, h.disabled,
    fun hin => ⟨hidle, fun hplain hdown => ?_⟩, callbacks_sorted revents, h.destroyed⟩
  have hreading := hread (read_mem_callbacks hin)
  rw [h.disabled hplain hdown] at hreading
  cases hreading

theorem sorted_tail {callback : Readiness}
    (h : callback :: ready = [.close] ∨ (callback :: ready).Sublist [.error, .read, .write]) :
    (ready = [.close] ∨ ready.Sublist [.error, .read, .write]) ∧
      (callback ≠ .error → .read ∉ ready) := by
  rcases h with h | h
  · obtain ⟨rfl, rfl⟩ := List.cons.inj h
    exact ⟨.inr (List.nil_sublist _), by simp⟩
  · refine ⟨.inr ((List.sublist_cons_self _ _).trans h), fun hne hin => ?_⟩
    have hsub : (callback :: ready).Sublist [.read, .write] := by
      cases h with
      | cons _ h => exact h
      | cons_cons => exact absurd rfl hne
    have hpair : [callback, Readiness.read].Sublist [.read, .write] :=
      (List.Sublist.cons_cons callback (List.singleton_sublist.mpr hin)).trans hsub
    cases callback <;> exact absurd hpair (by decide)

theorem Alive.handleEvent (h : Alive s) {callback : Readiness} (hidle : s.machine.stack = [])
    (hready : s.ready = callback :: ready) (hinput : Life.readyInput callback = some input)
    (hnext : s.machine.next files user input = some machine) : Alive { s with machine, ready } := by
  obtain ⟨hsorted, hlast⟩ := sorted_tail (hready ▸ h.sorted)
  have hold : s.machine.conn.state ≠ .connecting := by
    intro hyoung
    cases hready.symm.trans (h.phase.young hyoung).ready
  cases callback with
  | error => cases hinput
  | read =>
    cases hinput
    exact h.wake hidle hnext rfl (.inl rfl) nofun (fun hyoung => absurd hyoung hold)
      (fun _ => (h.readFirst (hready ▸ List.mem_cons_self)).2) (hlast nofun) hsorted
  | write =>
    cases hinput
    exact h.wake hidle hnext rfl (.inr (.inl rfl)) nofun (fun hyoung => absurd hyoung hold) nofun
      (hlast nofun) hsorted
  | close =>
    cases hinput
    exact h.wake hidle hnext rfl (.inr (.inr (.inl rfl))) nofun (fun hyoung => absurd hyoung hold) nofun
      (hlast nofun) hsorted

/-- Every event keeps the invariant. -/
theorem Alive.next (h : Alive s) {event : LifeEvent Callback Outcome Task}
    (hnext : s.next files user event = some s') : Alive s' := by
  cases event with
  | connectEstablished =>
    simp only [Life.next, Bool.and_eq_true, idle_iff, Bool.not_eq_true'] at hnext
    split at hnext
    · rename_i hidle
      obtain ⟨machine, hmachine, rfl⟩ := Option.map_eq_some_iff.mp hnext
      exact h.connectEstablished hidle.1.1 hidle.1.2 hidle.2 hmachine
    · cases hnext
  | poll revents =>
    simp only [Life.next, Bool.and_eq_true, idle_iff, decide_eq_true_eq] at hnext
    split at hnext <;> cases hnext
    rename_i hidle
    exact h.poll hidle.1.1.1 hidle.2
  | handleEvent =>
    simp only [Life.next] at hnext
    split at hnext
    · rename_i callback ready hidle hready
      split at hnext
      · cases hnext
        obtain ⟨hsorted, -⟩ := sorted_tail (hready ▸ h.sorted)
        have hold : s.machine.conn.state ≠ .connecting := by
          intro hyoung
          cases hready.symm.trans (h.phase.young hyoung).ready
        refine h.continues (h.phase.same rfl rfl fun hyoung => absurd hyoung hold) (.refl _) rfl rfl
          (fun hin => h.readFirst ?_) hsorted rfl
        rw [hready]
        exact List.mem_cons_of_mem callback hin
      · rename_i input hinput
        obtain ⟨machine, hmachine, rfl⟩ := Option.map_eq_some_iff.mp hnext
        exact h.handleEvent hidle hready hinput hmachine
    · cases hnext
  | functor =>
    simp only [Life.next, idle_iff] at hnext
    split at hnext
    · rename_i hidle
      obtain ⟨machine, hmachine, rfl⟩ := Option.map_eq_some_iff.mp hnext
      exact h.wake hidle.1 hmachine rfl (.inr (.inr (.inr (.inl rfl)))) nofun (fun _ => rfl) nofun
        (by simp [hidle.2]) h.sorted
    · cases hnext
  | go input =>
    simp only [Life.next] at hnext
    split at hnext
    · cases hnext
    · rename_i code rest hstack
      split at hnext
      · rename_i hinternal
        obtain ⟨machine, hmachine, rfl⟩ := Option.map_eq_some_iff.mp hnext
        cases Machine.next_cases hmachine with
        | post | background => cases hinternal
        | wake _ _ _ hidle => cases hstack.symm.trans hidle
        | complete _ unit rest' _ hstack' hcomplete =>
          obtain ⟨rfl, rfl⟩ := List.cons.inj (hstack.symm.trans hstack')
          have hcompleted := h.complete hstack hcomplete
          simpa [Life.observe, Code.asksToRead] using hcompleted
        | exec _ code' rest' more c hstack' hexec =>
          obtain ⟨rfl, rfl⟩ := List.cons.inj (hstack.symm.trans hstack')
          exact h.exec hstack hexec
      · cases hnext
  | call call =>
    simp only [Life.next, Bool.and_eq_true, idle_iff, Bool.not_eq_true', List.isEmpty_eq_false_iff]
      at hnext
    split at hnext
    · rename_i hidle
      obtain ⟨machine, hmachine, rfl⟩ := Option.map_eq_some_iff.mp hnext
      refine h.wake hidle.1.1 hmachine rfl (.inr (.inr (.inr (.inr hidle.2)))) nofun
        (fun hyoung => ?_) nofun (by simp [hidle.1.2]) h.sorted
      exact absurd (h.phase.young hyoung).told hidle.2
    · cases hnext
  | post call =>
    simp only [Life.next, List.isEmpty_iff] at hnext
    split at hnext
    · cases hnext
    · rename_i htold
      obtain ⟨machine, hmachine, rfl⟩ := Option.map_eq_some_iff.mp hnext
      cases hmachine
      exact h.posted htold (continues_post call).1 rfl
  | background task =>
    simp only [Life.next, List.isEmpty_iff] at hnext
    split at hnext
    · cases hnext
    · rename_i htold
      obtain ⟨machine, hmachine, rfl⟩ := Option.map_eq_some_iff.mp hnext
      cases hmachine
      exact h.posted htold (continues_posts _).1 rfl
  | connectDestroyed =>
    simp only [Life.next, Bool.and_eq_true, idle_iff] at hnext
    split at hnext <;> cases hnext
    rename_i hidle
    exact h.connectDestroyed hidle.1.1 hidle.1.2

theorem alive_fresh (tls ktls : Bool) (owner : Owner) :
    Alive ({ machine := .fresh tls ktls owner } : Life Callback Owner) where
  phase := .silent rfl rfl rfl rfl nofun nofun (fun _ => rfl) fun _ => ⟨rfl, rfl, rfl, rfl⟩
  closes := Nat.zero_le 1
  unclosed := fun _ => rfl
  disabled := fun _ => nofun
  readFirst := nofun
  sorted := .inr (List.nil_sublist _)
  destroyed := nofun

end Steps

end ChatRoom.Net
