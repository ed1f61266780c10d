import ChatRoom.Proof.Notices

/-!
# What a peer sends and the server reads

`handlePlainRead` reads once for every event and calls the message callback right away.
`handleTlsRead` reads until `SSL_read` has nothing more to give and calls back at the end of the
loop.
-/

namespace ChatRoom.Net

open OutputLedger Transition

variable {Callback Owner Outcome Task : Type}

structure Link (Callback Owner : Type) where
  machine : Machine Callback Owner
  sent : Bytes := []
  unread : Bytes := []
  /-- The peer has closed after it, with a FIN or `close_notify`. -/
  closed : Bool := false
  read : Bytes := []
  /-- The part of it that was there when the message callback was called in the state
  `kConnected`. -/
  visible : Bytes := []

inductive LinkEvent (Callback Outcome Task : Type) where
  | send (bytes : Bytes)
  | close
  /-- A read takes so many bytes. -/
  | received (count : Nat)
  | input (input : Input Callback Outcome Task)

namespace Link

variable (l : Link Callback Owner)

/-- A read ends the stream only where the peer has ended it, and the channel is enabled from
`connectEstablished` to `handleClose`. -/
def offers : Input Callback Outcome Task → Bool
  | .received => false
  | .endOfStream => l.closed && l.unread.isEmpty
  | .readable | .writable | .hangup =>
    l.machine.conn.state = .connected || l.machine.conn.state = .disconnecting
  | _ => true

def seen (input : Input Callback Outcome Task) : Bytes :=
  match l.machine.stack.head?, input with
  | some .messageCallback, .calls _ => if l.machine.conn.connected then l.read else l.visible
  | _, _ => l.visible

def next (files : Bytes → Bytes) (user : User Callback Owner Outcome Task) :
    LinkEvent Callback Outcome Task → Option (Link Callback Owner)
  | .send bytes =>
    if l.closed then none
    else some { l with sent := l.sent ++ bytes, unread := l.unread ++ bytes }
  | .close => some { l with closed := true }
  | .received count =>
    if 0 < count ∧ count ≤ l.unread.length then
      (l.machine.next files user .received).map fun machine =>
        { l with
          machine
          read := l.read ++ l.unread.take count
          unread := l.unread.drop count }
    else none
  | .input input =>
    if l.offers input then
      (l.machine.next files user input).map fun machine =>
        { l with machine, visible := l.seen input }
    else none

def fresh (tls ktls : Bool) (owner : Owner) : Link Callback Owner :=
  { machine := .fresh tls ktls owner }

end Link

/-! ### What the code of a connection leaves alone -/

def Code.reads : Code Callback → Bool
  | .handlePlainRead | .handleTlsRead _ | .driveTlsHandshake | .handleClose => true
  | _ => false

/-- A piece of code is steady and leaves nothing that delivers. -/
structure Quietly (c c' : TcpConnection Callback) (more : List (Code Callback)) : Prop
    extends Steady c c' where
  codes : ∀ code ∈ more, code.delivers = false

section Exec

variable {files : Bytes → Bytes} {c c' : TcpConnection Callback} {code : Code Callback}
  {more : List (Code Callback)} {input : Input Callback Outcome Task}

theorem Leads.quietly (h : Leads c code input more) (hfailed : input ≠ .failed)
    (hreads : code.reads = false) : Quietly c c more := by
  cases h with
  | fails hfails =>
    unfold Code.Fails at hfails
    split at hfails <;> first
      | exact absurd rfl hfailed
      | cases hreads
      | exact hfails.elim
  | plainMessage | readAgain | readOn | message => cases hreads
  | resumes hresumes => cases hresumes <;> exact ⟨.refl c, by simp [Code.delivers]⟩
  | _ => exact ⟨.refl c, by simp [Code.delivers]⟩

theorem Sets.quietly (h : Sets c code input c' more) (hreads : code.reads = false) :
    Quietly c c' more := by
  cases h with
  | readBlocked | greets | handshaken | handshakeReads | handshakeBlocked => cases hreads
  | readDone hresumes => cases hresumes <;> exact ⟨⟨rfl, id, .inl rfl, .inl⟩, by simp [Code.delivers]⟩
  | _ => exact ⟨⟨rfl, id, .inl rfl, .inl⟩, by simp⟩

theorem quietly_calm (h : Continues c c' ∧ ∀ other ∈ more, other.Calm) : Quietly c c' more :=
  ⟨h.1.toSteady, fun other hin => (h.2 other hin).2⟩

theorem Quietly.append {after : Code Callback} (h : Quietly c c' more)
    (hafter : after.delivers = false) : Quietly c c' (more ++ [after]) := by
  refine ⟨h.toSteady, fun code hcode => ?_⟩
  rcases List.mem_append.mp hcode with hcode | hcode
  · exact h.codes code hcode
  · rwa [List.mem_singleton.mp hcode]

theorem exec_quietly (hfailed : input ≠ .failed) (hreads : code.reads = false)
    (hexec : exec files c code input = some (c', more)) : Quietly c c' more := by
  cases exec_does hexec with
  | leads hleads => exact hleads.quietly hfailed hreads
  | sets hsets => exact hsets.quietly hreads
  | text text hsends => exact quietly_calm (continues_sends hsends)
  | header frame hsends => exact (quietly_calm (continues_sends hsends)).append rfl
  | flushed | writesAll => exact ⟨steady_finish ⟨rfl, id, .inl rfl, .inl⟩, by simp⟩
  | closes => cases hreads
  | forces hopen => exact ⟨⟨rfl, id, .inr ⟨rfl, hopen⟩, fun _ => .inr rfl⟩, by simp⟩
  | calls call calls => exact (quietly_calm (call_called call).continues).append rfl
  | _ => exact ⟨⟨rfl, id, .inl rfl, .inl⟩, by simp [Code.delivers]⟩

theorem wake_quietly (hhangup : input ≠ .hangup) (hestablished : input ≠ .connectEstablished)
    (hforce : .forceCloseInLoop ∉ c.functors) (hwake : wake c input = some (c', more)) :
    Quietly c c' more := by
  refine ⟨(wake_tells hwake hestablished).1.toSteady, ?_⟩
  cases wake_wakes hwake with
  | call call hcalled => exact fun other hin => (hcalled.continues.2 other hin).2
  | functor functor functors hfunctors hran =>
    cases hran with
    | accepts _ _ haccepts => exact fun other hin => (haccepts.continues.2 other hin).2
    | closes => exact absurd (hfunctors ▸ List.mem_cons_self) hforce
    | _ => simp [Code.delivers]
  | event harises =>
    cases harises with
    | write hresumes => cases hresumes <;> simp [Code.delivers]
    | hangup => exact absurd rfl hhangup
    | _ => simp [Code.delivers]

end Exec

/-! ### The invariant -/

/-- Nothing fails, and the server does not close the connection itself. -/
structure Orderly (files : Bytes → Bytes) (user : User Callback Owner Outcome Task)
    (l : Link Callback Owner) (event : LinkEvent Callback Outcome Task) : Prop where
  stays : ∀ l', l.next files user event = some l' → l'.machine.conn.state ≠ .disconnecting
  sound : event ≠ .input .failed
  hangup : event ≠ .input .hangup
  handshake : event = .input .interrupted → l.machine.stack.head? ≠ some .driveTlsHandshake

/-- `SSL_read` reports the end of the stream in a round of `handleTlsRead` that has read something. -/
def EndsBehindData (l : Link Callback Owner) (event : LinkEvent Callback Outcome Task) : Prop :=
  event = .input .endOfStream ∧ l.machine.stack.head? = some (.handleTlsRead true)

/-- The peer has closed, and everything it has sent was seen. -/
structure Link.Finished (l : Link Callback Owner) : Prop where
  closed : l.closed = true
  unread : l.unread = []
  visible : l.visible = l.read

structure Reads (l : Link Callback Owner) : Prop where
  conserved : l.read ++ l.unread = l.sent
  stays : l.machine.conn.state ≠ .disconnecting
  unforced : .forceCloseInLoop ∉ l.machine.conn.functors
  young : l.machine.conn.state = .connecting →
    l.machine.stack = [] ∧ l.machine.conn.functors = []
  below : ∀ code ∈ l.machine.stack.tail, code.delivers = false
  reading : l.machine.stack.head? = some (.handleTlsRead true) →
    l.machine.conn.tls = true ∧ l.machine.conn.tlsHandshakeComplete = true
  seen : l.machine.conn.state ≠ .disconnected → l.visible = l.read ∨
    l.machine.stack.head? = some (.handleTlsRead true) ∨
    l.machine.stack.head? = some .messageCallback
  closing : l.machine.stack.head? = some .handleClose → l.Finished
  closed : l.machine.conn.state = .disconnected → l.Finished

namespace Reads

variable {files : Bytes → Bytes} {user : User Callback Owner Outcome Task}
  {l l' : Link Callback Owner} {m : Machine Callback Owner}

theorem fresh (tls ktls : Bool) (owner : Owner) :
    Reads (Link.fresh tls ktls owner : Link Callback Owner) where
  conserved := rfl
  stays := nofun
  unforced := nofun
  young := fun _ => ⟨rfl, rfl⟩
  below := nofun
  reading := nofun
  seen := fun _ => .inl rfl
  closing := nofun
  closed := nofun

theorem visible (h : Reads l) {code : Code Callback} {rest : List (Code Callback)}
    (hstack : l.machine.stack = code :: rest) (hquiet : code.delivers = false) :
    l.visible = l.read := by
  by_cases hclosed : l.machine.conn.state = .disconnected
  · exact (h.closed hclosed).visible
  · rcases h.seen hclosed with hseen | hhead | hhead
    · exact hseen
    · rw [hstack] at hhead
      cases hhead
      cases hquiet
    · rw [hstack] at hhead
      cases hhead
      cases hquiet

theorem visible_idle (h : Reads l) (hidle : l.machine.stack = []) : l.visible = l.read := by
  by_cases hclosed : l.machine.conn.state = .disconnected
  · exact (h.closed hclosed).visible
  · rcases h.seen hclosed with hseen | hhead | hhead
    · exact hseen
    · rw [hidle] at hhead
      cases hhead
    · rw [hidle] at hhead
      cases hhead

theorem settled (hconserved : l.read ++ l.unread = l.sent) (hstays : m.conn.state ≠ .disconnecting)
    (hunforced : .forceCloseInLoop ∉ m.conn.functors)
    (hyoung : m.conn.state = .connecting → m.stack = [] ∧ m.conn.functors = [])
    (hquiet : ∀ code ∈ m.stack, code.delivers = false) {visible : Bytes} (hvisible : visible = l.read)
    (hclosed : m.conn.state = .disconnected → l.Finished) :
    Reads { l with machine := m, visible } := by
  have hhead : ∀ {code : Code Callback}, m.stack.head? = some code → code.delivers = false :=
    fun hhead => hquiet _ (List.mem_of_mem_head? hhead)
  refine ⟨hconserved, hstays, hunforced, hyoung, ?_, ?_, fun _ => .inl hvisible, ?_, ?_⟩
  · exact fun code hcode => hquiet code (List.mem_of_mem_tail hcode)
  · intro hreads
    cases hhead hreads
  · intro hcloses
    cases hhead hcloses
  · intro hdown
    obtain ⟨hend, hunread, -⟩ := hclosed hdown
    exact ⟨hend, hunread, hvisible⟩

theorem quiet (h : Reads l) (hsteady : Steady l.machine.conn m.conn)
    (hstays : m.conn.state ≠ .disconnecting) (hquiet : ∀ code ∈ m.stack, code.delivers = false)
    (hyoung : m.conn.state = .connecting → m.stack = [] ∧ m.conn.functors = []) {visible : Bytes}
    (hvisible : visible = l.read) : Reads { l with machine := m, visible } := by
  have hstate := hsteady.same hstays
  refine settled h.conserved hstays ?_ hyoung hquiet hvisible fun hclosed => ?_
  · exact fun hforce => (hsteady.functors hforce).elim h.unforced hstays
  · exact h.closed (hstate.symm.trans hclosed)

theorem posted (h : Reads l) {c : TcpConnection Callback} (hsteady : Steady l.machine.conn c)
    (hyoung : l.machine.conn.state = .connecting → c = l.machine.conn)
    (hstays : c.state ≠ .disconnecting) (owner : Owner) :
    Reads { l with machine := { l.machine with conn := c, owner } } := by
  have hstate := hsteady.same hstays
  refine ⟨h.conserved, hstays, ?_, ?_, h.below, ?_, ?_, fun hhead => { h.closing hhead with }, ?_⟩
  · exact fun hforce => (hsteady.functors hforce).elim h.unforced hstays
  · intro hnew
    have hnew' := hstate.symm.trans hnew
    rw [hyoung hnew']
    exact h.young hnew'
  · intro hhead
    obtain ⟨htls, hready⟩ := h.reading hhead
    exact ⟨hsteady.tls.trans htls, hsteady.handshake hready⟩
  · intro hopen
    exact h.seen fun hclosed => hopen (hstate.trans hclosed)
  · intro hclosed
    exact { h.closed (hstate.symm.trans hclosed) with }

theorem old (h : Reads l) {code : Code Callback} {rest : List (Code Callback)}
    (hstack : l.machine.stack = code :: rest) : l.machine.conn.state ≠ .connecting := by
  intro hyoung
  rw [(h.young hyoung).1] at hstack
  cases hstack

theorem finished (h : Reads l) {code : Code Callback} {rest : List (Code Callback)}
    (hstack : l.machine.stack = code :: rest) (hdown : l.machine.conn.connected ≠ true) :
    l.Finished := by
  refine h.closed ?_
  have hold := h.old hstack
  have hstays := h.stays
  have hup : l.machine.conn.state ≠ .connected := by
    simpa [TcpConnection.connected] using hdown
  cases hstate : l.machine.conn.state <;> simp_all

theorem rest (h : Reads l) {code : Code Callback} {rest : List (Code Callback)}
    (hstack : l.machine.stack = code :: rest) : ∀ code ∈ rest, code.delivers = false := by
  have hbelow := h.below
  rw [hstack] at hbelow
  exact hbelow

theorem goOn (h : Reads l) {code : Code Callback} {rest more : List (Code Callback)}
    {c : TcpConnection Callback} {visible : Bytes} (hstack : l.machine.stack = code :: rest)
    (hsteady : Steady l.machine.conn c) (hstays : c.state ≠ .disconnecting)
    (hmore : ∀ code ∈ more, code.delivers = false) (hvisible : visible = l.read) :
    Reads { l with machine := { l.machine with conn := c, stack := more ++ rest }, visible } := by
  have hstate := hsteady.same hstays
  refine h.quiet hsteady hstays (fun code hcode => ?_)
    (fun hyoung => absurd (hstate.symm.trans hyoung) (h.old hstack)) hvisible
  exact (List.mem_append.mp hcode).elim (hmore code) (h.rest hstack code)

theorem unseen {code : Code Callback} {rest : List (Code Callback)}
    (hconserved : l.read ++ l.unread = l.sent) (hstays : l.machine.conn.state ≠ .disconnecting)
    (hunforced : .forceCloseInLoop ∉ l.machine.conn.functors)
    (hold : l.machine.conn.state ≠ .connecting) (hstack : l.machine.stack = code :: rest)
    (hrest : ∀ code ∈ rest, code.delivers = false)
    (hcode : code = .messageCallback ∨ code = .handleTlsRead true ∧
      l.machine.conn.tls = true ∧ l.machine.conn.tlsHandshakeComplete = true)
    (hclosed : l.machine.conn.state = .disconnected → l.Finished) : Reads l := by
  have hhead : l.machine.stack.head? = some code := by rw [hstack]; rfl
  refine ⟨hconserved, hstays, hunforced, fun hyoung => absurd hyoung hold, ?_, ?_, ?_, ?_, hclosed⟩
  · rwa [hstack]
  · rw [hhead]
    rintro ⟨⟩
    exact (hcode.resolve_left nofun).2
  · rw [hhead]
    rcases hcode with rfl | ⟨rfl, -⟩
    · exact fun _ => .inr (.inr rfl)
    · exact fun _ => .inr (.inl rfl)
  · rw [hhead]
    rintro ⟨⟩
    simp at hcode

theorem received (h : Reads l) {code code' : Code Callback} {rest : List (Code Callback)} {count : Nat}
    (hstack : l.machine.stack = code :: rest) (hcount : 0 < count ∧ count ≤ l.unread.length)
    (hcode : code' = .messageCallback ∨ code' = .handleTlsRead true ∧
      l.machine.conn.tls = true ∧ l.machine.conn.tlsHandshakeComplete = true) :
    Reads { l with
      machine := { l.machine with stack := code' :: rest }
      read := l.read ++ l.unread.take count
      unread := l.unread.drop count } := by
  refine unseen ?_ h.stays h.unforced (h.old hstack) rfl (h.rest hstack) hcode fun hclosed => ?_
  · rw [List.append_assoc, List.take_append_drop]
    exact h.conserved
  · rw [(h.closed hclosed).unread, List.length_nil] at hcount
    omega

theorem deliver (h : Reads l) {code code' : Code Callback} {rest : List (Code Callback)}
    {c : TcpConnection Callback} (hstack : l.machine.stack = code :: rest)
    (hsteady : Steady l.machine.conn c) (hstays : c.state ≠ .disconnecting)
    (hcode : code' = .messageCallback ∨ code' = .handleTlsRead true ∧ c.tls = true ∧
      c.tlsHandshakeComplete = true) :
    Reads { l with machine := { l.machine with conn := c, stack := code' :: rest } } := by
  have hstate := hsteady.same hstays
  refine unseen h.conserved hstays ?_ ?_ rfl (h.rest hstack) hcode fun hclosed => ?_
  · exact fun hforce => (hsteady.functors hforce).elim h.unforced hstays
  · exact fun hyoung => h.old hstack (hstate.symm.trans hyoung)
  · exact { h.closed (hstate.symm.trans hclosed) with }

theorem close (h : Reads l) {code : Code Callback} {rest : List (Code Callback)}
    (hstack : l.machine.stack = code :: rest) (hquiet : code.delivers = false)
    (hclosed : l.closed = true) (hunread : l.unread = []) :
    Reads { l with machine := { l.machine with stack := .handleClose :: rest } } := by
  have hvisible := h.visible hstack hquiet
  refine ⟨h.conserved, h.stays, h.unforced, fun hyoung => absurd hyoung (h.old hstack),
    h.rest hstack, nofun, fun _ => .inl hvisible, fun _ => ⟨hclosed, hunread, hvisible⟩,
    fun hclosed => { h.closed hclosed with }⟩

theorem seen_eq {input : Input Callback Outcome Task} {code : Code Callback}
    {rest : List (Code Callback)} (hstack : l.machine.stack = code :: rest)
    (hcode : code ≠ .messageCallback) : l.seen input = l.visible := by
  unfold Link.seen
  rw [hstack]
  split
  · rename_i hhead
    cases hhead
    exact absurd rfl hcode
  · rfl

section Exec

variable {code : Code Callback} {rest more : List (Code Callback)} {c : TcpConnection Callback}
  {input : Input Callback Outcome Task}

theorem exec_quiet (h : Reads l) (hstack : l.machine.stack = code :: rest)
    (hexec : exec files l.machine.conn code input = some (c, more)) (hfailed : input ≠ .failed)
    (hstays : c.state ≠ .disconnecting) (hreads : code.reads = false) :
    Reads { l with
      machine := { l.machine with conn := c, stack := more ++ rest }
      visible := l.seen input } := by
  have hquietly := exec_quietly hfailed hreads hexec
  refine h.goOn hstack hquietly.toSteady hstays hquietly.codes ?_
  by_cases hcallback : code = .messageCallback
  · subst hcallback
    cases input <;> cases hexec
    -- the callback sees the buffer, unless the connection has been closed
    unfold Link.seen
    rw [hstack]
    dsimp only [List.head?_cons]
    split
    · rfl
    · rename_i hdown
      exact (h.finished hstack hdown).visible
  · rw [seen_eq hstack hcallback]
    refine h.visible hstack ?_
    cases code <;> simp_all [Code.delivers, Code.reads]

theorem close_read (h : Reads l) (hstack : l.machine.stack = code :: rest)
    (hreads : code.reads = true) (hfails : code.Fails input) (hoffers : l.offers input = true)
    (hfailed : input ≠ .failed) (hinterrupted : input = .interrupted → code ≠ .driveTlsHandshake)
    (hends : l.machine.conn.tls = true → input = .endOfStream → code ≠ .handleTlsRead true) :
    Reads { l with machine := { l.machine with stack := .handleClose :: rest } } := by
  obtain rfl : input = .endOfStream := by
    unfold Code.Fails at hfails
    split at hfails <;> first
      | rfl
      | exact absurd rfl hfailed
      | exact absurd rfl (hinterrupted rfl)
      | exact hfails.elim
  obtain ⟨hclosed, hunread⟩ := Bool.and_eq_true_iff.mp hoffers
  refine h.close hstack ?_ hclosed (List.isEmpty_iff.mp hunread)
  cases code with
  | handleTlsRead received =>
    cases received with
    | false => rfl
    | true => exact absurd rfl (hends (h.reading (by rw [hstack]; rfl)).1 rfl)
  | handlePlainRead | driveTlsHandshake => rfl
  | handleClose => cases hfails
  | _ => cases hreads

theorem visible_idles (h : Reads l) (hstack : l.machine.stack = code :: rest)
    (hreads : code.reads = true) (hidles : code.Idles l.machine.conn input) :
    l.visible = l.read := by
  cases code with
  | handleTlsRead received =>
    cases received with
    | false => exact h.visible hstack rfl
    | true =>
      obtain ⟨htls, hready⟩ := h.reading (by rw [hstack]; rfl)
      cases input <;> simp [Code.Idles, htls, hready] at hidles
      exact (h.finished hstack (by simp [hidles])).visible
  | handlePlainRead | driveTlsHandshake => exact h.visible hstack rfl
  | handleClose => exact (h.closing (by rw [hstack]; rfl)).visible
  | _ => cases hreads

theorem exec_reads (h : Reads l) (hstack : l.machine.stack = code :: rest)
    (hexec : exec files l.machine.conn code input = some (c, more)) (hreads : code.reads = true)
    (hoffers : l.offers input = true) (hfailed : input ≠ .failed)
    (hinterrupted : input = .interrupted → code ≠ .driveTlsHandshake)
    (hends : l.machine.conn.tls = true → input = .endOfStream → code ≠ .handleTlsRead true) :
    Reads { l with machine := { l.machine with conn := c, stack := more ++ rest } } := by
  cases exec_does hexec with
  | leads hleads =>
    cases hleads with
    | idles hidles =>
      exact h.goOn hstack (.refl _) h.stays (by simp) (h.visible_idles hstack hreads hidles)
    | fails hfails => exact h.close_read hstack hreads hfails hoffers hfailed hinterrupted hends
    | plainMessage | readOn => cases hoffers
    | readAgain received =>
      cases received with
      | false => exact h.goOn hstack (.refl _) h.stays (by simp [Code.delivers]) (h.visible hstack rfl)
      | true =>
        exact h.deliver hstack (.refl _) h.stays (.inr ⟨rfl, h.reading (by rw [hstack]; rfl)⟩)
    | message => exact h.deliver hstack (.refl _) h.stays (.inl rfl)
    | callback hcode => rcases hcode with rfl | rfl <;> cases hreads
    | _ => cases hreads
  | sets hsets =>
    cases hsets with
    | readBlocked received =>
      split
      · exact h.deliver hstack ⟨rfl, id, .inl rfl, .inl⟩ h.stays (.inl rfl)
      · rename_i hnot
        refine h.goOn hstack ⟨rfl, id, .inl rfl, .inl⟩ h.stays (by simp) ?_
        cases received with
        | false => exact h.visible hstack rfl
        | true => exact (h.finished hstack (by simpa using hnot)).visible
    | greets | handshaken | handshakeReads | handshakeBlocked =>
      refine h.goOn hstack ⟨rfl, ?_, .inl rfl, .inl⟩ h.stays (by simp [Code.delivers])
        (h.visible hstack rfl)
      first | exact id | exact fun _ => rfl
    | _ => cases hreads
  | closes =>
    have hfinished := h.closing (by rw [hstack]; rfl)
    refine settled (m := { l.machine with conn := _, stack := _ }) h.conserved ?_ ?_ ?_ ?_
      hfinished.visible fun _ => hfinished
    · simp
    · exact h.unforced
    · simp
    intro code hcode
    refine (List.mem_append.mp hcode).elim (fun hcode => ?_) (h.rest hstack code)
    split at hcode <;> simp_all [Code.delivers]
  | _ => cases hreads

theorem exec (h : Reads l) (hstack : l.machine.stack = code :: rest)
    (hexec : exec files l.machine.conn code input = some (c, more))
    (hstays : c.state ≠ .disconnecting) (hoffers : l.offers input = true)
    (hfailed : input ≠ .failed) (hinterrupted : input = .interrupted → code ≠ .driveTlsHandshake)
    (hends : l.machine.conn.tls = true → input = .endOfStream → code ≠ .handleTlsRead true) :
    Reads { l with
      machine := { l.machine with conn := c, stack := more ++ rest }
      visible := l.seen input } := by
  cases hreads : code.reads with
  | false => exact h.exec_quiet hstack hexec hfailed hstays hreads
  | true =>
    rw [seen_eq hstack (by rintro rfl; cases hreads)]
    exact h.exec_reads hstack hexec hreads hoffers hfailed hinterrupted hends

theorem wake_young (h : Reads l) (hyoung : l.machine.conn.state = .connecting)
    (hestablished : input ≠ .connectEstablished) (hoffers : l.offers input = true)
    (hwake : wake l.machine.conn input = some (c, more)) : c = l.machine.conn ∧ more = [] := by
  cases input with
  | call call =>
    obtain ⟨rfl, rfl⟩ := some_pair hwake
    cases call <;>
      simp [TcpConnection.call, TcpConnection.connected, TcpConnection.forceClose, hyoung]
  | functor => simp [wake, (h.young hyoung).2] at hwake
  | readable | writable | hangup => simp [Link.offers, hyoung] at hoffers
  | connectEstablished => exact absurd rfl hestablished
  | _ => cases hwake

theorem wake (h : Reads l) (hidle : l.machine.stack = [])
    (hwake : wake l.machine.conn input = some (c, more)) (hstays : c.state ≠ .disconnecting)
    (hoffers : l.offers input = true) (hhangup : input ≠ .hangup) :
    Reads { l with machine := { l.machine with conn := c, stack := more } } := by
  have hvisible := h.visible_idle hidle
  by_cases hestablished : input = .connectEstablished
  · subst hestablished
    rw [wake] at hwake
    split at hwake
    · rename_i hyoung
      obtain ⟨rfl, rfl⟩ := some_pair hwake
      have hstate : l.machine.conn.connectEstablished.1.state = .connected ∧
          l.machine.conn.connectEstablished.1.functors = l.machine.conn.functors ∧
          ∀ code ∈ l.machine.conn.connectEstablished.2, code.delivers = false := by
        unfold TcpConnection.connectEstablished TcpConnection.notifyApplicationEstablished
        dsimp only
        split_ifs <;> simp [Code.delivers]
      obtain ⟨hup, hfunctors, hmore⟩ := hstate
      refine settled (m := { l.machine with
        conn := l.machine.conn.connectEstablished.1
        stack := l.machine.conn.connectEstablished.2 }) h.conserved hstays ?_ ?_ hmore hvisible ?_
      · rw [hfunctors]
        exact h.unforced
      · simp [hup]
      · simp [hup]
    · cases hwake
  · have hquietly := wake_quietly hhangup hestablished h.unforced hwake
    refine h.quiet (m := { l.machine with conn := c, stack := more }) hquietly.toSteady hstays
      hquietly.codes (fun hyoung => ?_) hvisible
    have hyoung' := (hquietly.same hstays).symm.trans hyoung
    obtain ⟨rfl, rfl⟩ := h.wake_young hyoung' hestablished hoffers hwake
    exact ⟨rfl, (h.young hyoung').2⟩

end Exec

theorem seen_of_ne {input : Input Callback Outcome Task} (hcalls : ∀ calls, input ≠ .calls calls) :
    l.seen input = l.visible := by
  unfold Link.seen
  split
  · rename_i calls hhead
    exact absurd rfl (hcalls calls)
  · rfl

theorem exec_received {c c' : TcpConnection Callback} {code : Code Callback}
    {more : List (Code Callback)}
    (hexec : Net.exec files c code (.received : Input Callback Outcome Task) = some (c', more)) :
    c' = c ∧ (more = [.messageCallback] ∨
      more = [.handleTlsRead true] ∧ c.tls = true ∧ c.tlsHandshakeComplete = true) := by
  have hsend : ∀ unit text, c.sendInLoop unit text (.received : Input Callback Outcome Task) =
      none := by
    intro unit text
    unfold TcpConnection.sendInLoop
    split_ifs <;> rfl
  cases exec_does hexec with
  | leads hleads =>
    cases hleads with
    | idles hidles =>
      unfold Code.Idles at hidles
      split at hidles <;> first | contradiction | simp at hidles
    | fails hfails =>
      unfold Code.Fails at hfails
      split at hfails <;> contradiction
    | plainMessage => exact ⟨rfl, .inl rfl⟩
    | readOn _ hready => exact ⟨rfl, .inr ⟨rfl, hready⟩⟩
  | sets hsets => cases hsets
  | text text => simp [Net.exec, hsend] at hexec
  | header frame => simp [Net.exec, TcpConnection.sendHeader, hsend] at hexec

theorem complete_stack {user : User Callback Owner Outcome Task} {unit : Numbered (Output Callback)}
    {rest : List (Code Callback)} {input : Input Callback Outcome Task}
    {m m' : Machine Callback Owner} (hcomplete : m.complete user unit rest input = some m') :
    ∃ owner fired more, m' = { m with owner, fired, stack := more ++ rest } ∧
      (∀ code ∈ more, code.delivers = false) ∧ ∀ calls, input ≠ .calls calls := by
  unfold Machine.complete at hcomplete
  split at hcomplete
  · obtain ⟨rfl, rfl⟩ := proceed_eq_some hcomplete
    exact ⟨m.owner, m.fired, [], rfl, by simp, nofun⟩
  · split at hcomplete
    · cases hcomplete
      exact ⟨_, _, [.user _], rfl, by simp [Code.delivers], nofun⟩
    · cases hcomplete

theorem next {event : LinkEvent Callback Outcome Task} (h : Reads l)
    (horderly : Orderly files user l event)
    (hends : l.machine.conn.tls = true → ¬EndsBehindData l event)
    (hnext : l.next files user event = some l') : Reads l' := by
  have hstays := horderly.stays l' hnext
  cases event with
  | send bytes =>
    rw [Link.next] at hnext
    split at hnext
    · cases hnext
    · rename_i hclosed
      have hopen : ∀ {p : Prop}, l.Finished → p := fun hfinished => absurd hfinished.closed hclosed
      cases hnext
      refine { h with
        conserved := ?_
        closing := fun hhead => hopen (h.closing hhead)
        closed := fun hdown => hopen (h.closed hdown) }
      show l.read ++ (l.unread ++ bytes) = l.sent ++ bytes
      rw [← List.append_assoc, h.conserved]
  | close =>
    cases hnext
    exact { h with
      closing := fun hhead => { h.closing hhead with closed := rfl }
      closed := fun hdown => { h.closed hdown with closed := rfl } }
  | received count =>
    rw [Link.next] at hnext
    split at hnext
    · rename_i hcount
      obtain ⟨m, hm, rfl⟩ := Option.map_eq_some_iff.mp hnext
      cases Machine.next_cases hm with
      | wake _ c more hidle hwake => cases hwake
      | complete _ unit rest _ hstack hcomplete =>
        unfold Machine.complete at hcomplete
        split at hcomplete <;> cases hcomplete
      | exec _ code rest more c hstack hexec =>
        obtain ⟨rfl, hmore⟩ := exec_received hexec
        rcases hmore with rfl | ⟨rfl, hready⟩
        · exact h.received hstack hcount (.inl rfl)
        · exact h.received hstack hcount (.inr ⟨rfl, hready⟩)
    · cases hnext
  | input input =>
    rw [Link.next] at hnext
    split at hnext
    · rename_i hoffers
      obtain ⟨m, hm, rfl⟩ := Option.map_eq_some_iff.mp hnext
      cases Machine.next_cases hm with
      | post call =>
        have hseen : l.seen (.post call : Input Callback Outcome Task) = l.visible :=
          seen_of_ne (by simp)
        rw [hseen]
        obtain ⟨hcontinues, hyoung⟩ := continues_post call
        exact h.posted hcontinues.toSteady hyoung hstays _
      | background task =>
        have hseen : l.seen (.background task : Input Callback Outcome Task) = l.visible :=
          seen_of_ne (by simp)
        rw [hseen]
        obtain ⟨hcontinues, hyoung⟩ := continues_posts _
        exact h.posted hcontinues.toSteady hyoung hstays _
      | wake _ c more hidle hwake =>
        have hseen : l.seen input = l.visible := by
          unfold Link.seen
          rw [hidle]
          rfl
        rw [hseen]
        refine h.wake hidle hwake hstays hoffers ?_
        rintro rfl
        exact horderly.hangup rfl
      | complete _ unit rest _ hstack hcomplete =>
        obtain ⟨owner, fired, more, rfl, hmore, hcalls⟩ := complete_stack hcomplete
        rw [seen_of_ne hcalls]
        refine h.quiet (m := { l.machine with owner, fired, stack := more ++ rest }) (.refl _) h.stays
          (fun code hcode => ?_) (fun hyoung => absurd hyoung (h.old hstack))
          (h.visible hstack rfl)
        exact (List.mem_append.mp hcode).elim (hmore code) (h.rest hstack code)
      | exec _ code rest more c hstack hexec =>
        refine h.exec hstack hexec hstays hoffers ?_ ?_ ?_
        · rintro rfl
          exact horderly.sound rfl
        · rintro rfl rfl
          exact horderly.handshake rfl (by rw [hstack]; rfl)
        · rintro htls rfl rfl
          exact hends htls ⟨rfl, by rw [hstack]; rfl⟩
    · cases hnext

end Reads

/-! ### The whole stream -/

variable {files : Bytes → Bytes} {user : User Callback Owner Outcome Task}

/-- Once everything has been read, the next event of the channel closes the connection. -/
theorem Link.closes_at_end {l : Link Callback Owner} (hidle : l.machine.stack = [])
    (hup : l.machine.conn.state = .connected)
    (hready : l.machine.conn.tls = true → l.machine.conn.tlsHandshakeComplete = true)
    (hclosed : l.closed = true) (hunread : l.unread = []) :
    ∃ l', Run (fun l event => Link.next l files user event) anyStep l
        [.input .readable, .input .endOfStream, .input .run] l' ∧
      l'.machine.conn.state = .disconnected ∧ l'.visible = l.visible := by
  -- both ways of reading come to `handleClose`
  have hread : ∃ code rest, l.machine.conn.handleRead = code :: rest ∧ code ≠ .messageCallback ∧
      Machine.next { l.machine with stack := code :: rest } files user .endOfStream =
        some { l.machine with stack := .handleClose :: rest } := by
    unfold TcpConnection.handleRead
    cases htls : l.machine.conn.tls with
    | false => exact ⟨.handlePlainRead, [], rfl, nofun, rfl⟩
    | true =>
      rw [hready htls]
      refine ⟨.handleTlsRead false, [.afterRead], rfl, nofun, ?_⟩
      simp [Machine.next, exec, TcpConnection.handleTlsRead, htls, hready htls]
  obtain ⟨code, rest, hcode, hcallback, hend⟩ := hread
  have hfirst : l.next files user (.input .readable) =
      some { l with machine := { l.machine with stack := code :: rest } } := by
    simp [Link.next, Link.offers, hup, Machine.next, hidle, wake, hcode, Link.seen]
  have hsecond : Link.next { l with machine := { l.machine with stack := code :: rest } } files user
      (.input .endOfStream) =
      some { l with machine := { l.machine with stack := .handleClose :: rest } } := by
    simp only [Link.next, Link.offers, hclosed, hunread, hend, List.isEmpty_nil, Bool.and_self,
      if_true, Option.map_some]
    rw [Reads.seen_eq rfl hcallback]
  have hthird : Link.next { l with machine := { l.machine with stack := .handleClose :: rest } } files
      user (.input .run) =
      some { l with
        machine := { l.machine with
          conn := l.machine.conn.handleClose.1
          stack := l.machine.conn.handleClose.2 ++ rest } } := by
    simp [Link.next, Link.offers, Machine.next, exec, Input.proceed, Link.seen]
  refine ⟨_, .snoc (.snoc (.snoc .nil trivial hfirst) trivial hsecond) trivial hthird, ?_, rfl⟩
  simp [TcpConnection.handleClose, hup]

/-- **Reading to the end.** If no round of `handleTlsRead` ends the stream behind data, nothing is
lost: when the connection is reported closed, the message callback has seen the whole stream, and
whenever the loop is idle before, everything but what has not been read yet. When nothing is left to
read, the next event of the channel closes the connection. The plain path asks for no condition. -/
theorem stream_visible_before_close {tls ktls : Bool} {owner : Owner}
    {events : List (LinkEvent Callback Outcome Task)} {l : Link Callback Owner}
    (hrun : Run (fun l event => Link.next l files user event)
      (fun l event => Orderly files user l event ∧
        (l.machine.conn.tls = true → ¬EndsBehindData l event))
      (Link.fresh tls ktls owner) events l) :
    (l.machine.conn.state = .disconnected → l.visible = l.sent) ∧
      (l.machine.stack = [] → l.visible ++ l.unread = l.sent) ∧
      (l.machine.stack = [] → l.machine.conn.state = .connected →
        (l.machine.conn.tls = true → l.machine.conn.tlsHandshakeComplete = true) →
        l.closed = true → l.unread = [] →
        ∃ l', Run (fun l event => Link.next l files user event) anyStep l
            [.input .readable, .input .endOfStream, .input .run] l' ∧
          l'.machine.conn.state = .disconnected ∧ l'.visible = l.sent) := by
  have hreads := hrun.invariant Reads (fun _ _ _ h hok hnext => h.next hok.1 hok.2 hnext)
    (.fresh tls ktls owner)
  have hconserved := hreads.conserved
  refine ⟨fun hclosed => ?_, fun hidle => ?_, fun hidle hup hready hclosed hunread => ?_⟩
  · obtain ⟨-, hunread, hvisible⟩ := hreads.closed hclosed
    rw [hunread, List.append_nil] at hconserved
    exact hvisible.trans hconserved
  · rw [hreads.visible_idle hidle]
    exact hconserved
  · obtain ⟨l', hcloses, hdown, hvisible⟩ := Link.closes_at_end hidle hup hready hclosed hunread
    rw [hunread, List.append_nil] at hconserved
    refine ⟨l', hcloses, hdown, ?_⟩
    rw [hvisible, hreads.visible_idle hidle]
    exact hconserved

/-! ### Two runs -/

def orderly [DecidableEq Callback] (files : Bytes → Bytes) (user : User Callback Owner Outcome Task)
    (l : Link Callback Owner) (event : LinkEvent Callback Outcome Task) : Bool :=
  ((l.next files user event).all fun l' => l'.machine.conn.state ≠ .disconnecting) &&
  match event with
  | .input .failed | .input .hangup => false
  | .input .interrupted => decide (l.machine.stack.head? ≠ some .driveTlsHandshake)
  | _ => true

theorem orderly_of_test [DecidableEq Callback] (l : Link Callback Owner)
    (event : LinkEvent Callback Outcome Task) (h : orderly files user l event = true) :
    Orderly files user l event := by
  obtain ⟨hstays, hsound⟩ := Bool.and_eq_true_iff.mp h
  refine ⟨fun l' hnext => ?_, ?_, ?_, ?_⟩
  · rw [hnext] at hstays
    exact of_decide_eq_true hstays
  · rintro rfl
    cases hsound
  · rintro rfl
    cases hsound
  · rintro rfl
    exact of_decide_eq_true hsound

def endsBehindData [DecidableEq Callback] (l : Link Callback Owner)
    (event : LinkEvent Callback Outcome Task) : Bool :=
  match event with
  | .input .endOfStream => decide (l.machine.stack.head? = some (.handleTlsRead true))
  | _ => false

theorem not_endsBehindData_of_test [DecidableEq Callback] (l : Link Callback Owner)
    (event : LinkEvent Callback Outcome Task) (h : endsBehindData l event = false) :
    ¬EndsBehindData l event := by
  rintro ⟨rfl, hhead⟩
  exact of_decide_eq_false h hhead

def lineSent : List (LinkEvent Unit Unit Unit) :=
  [.input .connectEstablished, .input .handshaken, .input (.calls []), .input .run, .input .run,
    .input (.sslPending false), .send (utf8 "hi\n"), .close, .input .readable]

def readApart : List (LinkEvent Unit Unit Unit) :=
  lineSent ++ [.received 3, .input .wantRead, .input (.calls []), .input .run, .input .run,
    .input .readable, .input .endOfStream, .input .run]

theorem stream_visible_read_apart :
    ∃ l, Run (fun l event => Link.next l (fun _ => []) passive event)
        (fun l event => Orderly (fun _ => []) passive l event ∧
          (l.machine.conn.tls = true → ¬EndsBehindData l event))
        (Link.fresh true false ()) readApart l ∧
      l.machine.conn.state = .disconnected ∧ l.sent = utf8 "hi\n" ∧ l.visible = l.sent := by
  have hcheck : ∀ (l : Link Unit Unit) (event : LinkEvent Unit Unit Unit),
      (orderly (fun _ => []) passive l event && !endsBehindData l event) = true →
      Orderly (fun _ => []) passive l event ∧
        (l.machine.conn.tls = true → ¬EndsBehindData l event) := by
    intro l event h
    obtain ⟨horderly, hends⟩ := Bool.and_eq_true_iff.mp h
    refine ⟨orderly_of_test l event horderly, fun _ => not_endsBehindData_of_test l event ?_⟩
    rwa [Bool.not_eq_true'] at hends
  have hreplay : (replay (fun l event => Link.next l (fun _ => []) passive event)
      (fun l event => orderly (fun _ => []) passive l event && !endsBehindData l event)
      (Link.fresh true false ()) readApart).any (fun l =>
        decide (l.machine.conn.state = .disconnected ∧ l.sent = utf8 "hi\n")) = true := by
    decide +kernel
  obtain ⟨l, hrun, htest⟩ := replay_reaches hcheck hreplay
  obtain ⟨hclosed, hsent⟩ := of_decide_eq_true htest
  exact ⟨l, hrun, hclosed, hsent, (stream_visible_before_close hrun).1 hclosed⟩

/-- **A line is lost.** The line and `close_notify` are read in one round of `handleTlsRead`, which
closes the connection without a call of the message callback. -/
theorem stream_lost_with_close :
    ∃ l, Run (fun l event => Link.next l (fun _ => []) passive event) (Orderly (fun _ => []) passive)
        (Link.fresh true false ())
        (lineSent ++ [.received 3, .input .endOfStream, .input .run]) l ∧
      l.machine.conn.state = .disconnected ∧ l.sent = utf8 "hi\n" ∧ l.visible = [] := by
  have hreplay : (replay (fun l event => Link.next l (fun _ => []) passive event)
      (orderly (fun _ => []) passive) (Link.fresh true false ())
      (lineSent ++ [.received 3, .input .endOfStream, .input .run])).any (fun l =>
        decide (l.machine.conn.state = .disconnected ∧ l.sent = utf8 "hi\n" ∧ l.visible = [])) =
      true := by
    decide +kernel
  obtain ⟨l, hrun, htest⟩ := replay_reaches orderly_of_test hreplay
  exact ⟨l, hrun, of_decide_eq_true htest⟩

end ChatRoom.Net
