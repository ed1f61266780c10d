import ChatRoom.OutputFraming

/-! # The order of the output of a connection -/

namespace ChatRoom.Net

open OutputLedger Transition

variable {Callback Owner Outcome Task : Type}

def inFlight (stack : List (Code Callback)) : List (Numbered (Output Callback)) :=
  (stack.head?.bind Code.waits).toList

def TcpConnection.line (c : TcpConnection Callback) (flight : List (Numbered (Output Callback))) :
    List (Numbered (Output Callback)) :=
  (if c.activeFileSend.isSome then c.deferredSends.map textUnit ++ flight
    else flight ++ c.deferredSends.map textUnit) ++ c.queuedFileFrames.map frameUnit

def Code.sendsDeferred : Code Callback → Bool
  | .sendInLoop _ | .flushTlsOutput | .handleClose => true
  | _ => false

def Draining (stack : List (Code Callback)) : Prop :=
  (stack.dropWhile Code.sendsDeferred).head? = some .drainDeferredSends

structure Lined (c : TcpConnection Callback) (stack : List (Code Callback)) : Prop where
  started : c.started.Sublist c.accepted
  line : c.state ≠ .disconnected →
    (c.started ++ c.line (inFlight stack)).Sublist c.accepted
  draining : c.state ≠ .disconnected → c.activeFileSend = none → c.deferredSends ≠ [] →
    Draining stack

section Lines

variable {files : Bytes → Bytes} {c c' : TcpConnection Callback} {code : Code Callback}
  {rest more stack : List (Code Callback)} {input : Input Callback Outcome Task}

theorem Code.waits_of_rests (h : code.rests = true) : code.waits = none := by
  cases code <;> first
    | rfl
    | cases h

theorem inFlight_append (hbelow : ∀ below ∈ rest, below.rests = true) :
    inFlight (more ++ rest) = inFlight more := by
  cases more with
  | cons first more => rfl
  | nil =>
    cases rest with
    | nil => rfl
    | cons below rest =>
      have hwaits := Code.waits_of_rests (hbelow below List.mem_cons_self)
      simp [inFlight, hwaits]

theorem Lined.keep {stack' : List (Code Callback)} (h : Lined c stack)
    (haccepted : c'.accepted = c.accepted)
    (hstate : c.state = .disconnected → c'.state = .disconnected ∧ c'.started = c.started)
    (hline : c.state ≠ .disconnected →
      (c'.started ++ c'.line (inFlight stack')).Sublist (c.started ++ c.line (inFlight stack)))
    (hdraining : c.state ≠ .disconnected → c'.state ≠ .disconnected → c'.activeFileSend = none →
      c'.deferredSends ≠ [] → Draining stack') : Lined c' stack' := by
  by_cases hclosed : c.state = .disconnected
  · obtain ⟨hclosed', hstarted⟩ := hstate hclosed
    refine ⟨?_, fun hopen => absurd hclosed' hopen, fun hopen => absurd hclosed' hopen⟩
    rw [hstarted, haccepted]
    exact h.started
  · have hsub : (c'.started ++ c'.line (inFlight stack')).Sublist c'.accepted := by
      rw [haccepted]
      exact (hline hclosed).trans (h.line hclosed)
    exact ⟨(List.sublist_append_left _ _).trans hsub, fun _ => hsub, hdraining hclosed⟩

theorem deferred_nil (h : Lined c (code :: rest)) (hopen : c.state ≠ .disconnected)
    (hidle : c.activeFileSend = none) (hcode : code.sendsDeferred = false)
    (hdrain : code ≠ .drainDeferredSends) : c.deferredSends = [] := by
  by_contra hdeferred
  have hdraining := h.draining hopen hidle hdeferred
  unfold Draining at hdraining
  rw [List.dropWhile_cons_of_neg (by rw [hcode]; exact Bool.false_ne_true)] at hdraining
  cases hdraining
  exact hdrain rfl

theorem draining_append (h : Draining (code :: rest)) (hcode : code.sendsDeferred = true)
    (hmore : ∀ other ∈ more, other.sendsDeferred = true) : Draining (more ++ rest) := by
  unfold Draining at h ⊢
  rw [List.dropWhile_cons_of_pos hcode] at h
  rwa [List.dropWhile_append_of_pos hmore]

theorem inFlight_of_waits (h : code.waits = none) : inFlight (code :: rest) = [] := by
  simp [inFlight, h]

theorem inFlight_nil_of_waits (h : more.filterMap Code.waits = []) : inFlight more = [] := by
  cases more with
  | nil => rfl
  | cons first more =>
    exact inFlight_of_waits (List.filterMap_eq_nil_iff.mp h first List.mem_cons_self)

theorem line_congr {flight : List (Numbered (Output Callback))}
    (hactive : c'.activeFileSend.isSome = c.activeFileSend.isSome)
    (hdeferred : c'.deferredSends = c.deferredSends)
    (hqueued : c'.queuedFileFrames = c.queuedFileFrames) : c'.line flight = c.line flight := by
  unfold TcpConnection.line
  rw [hactive, hdeferred, hqueued]

theorem Lined.quiet (h : Lined c (code :: rest)) (hstack : Stacked c (code :: rest))
    (hmoves : code.moves = false) (hexec : exec files c code input = some (c', more)) :
    Lined c' (more ++ rest) := by
  obtain ⟨hkept, hturn⟩ := exec_quiet hmoves hexec
  have hwaits : code.waits = none := by
    cases code <;> first
      | rfl
      | cases hmoves
  have hbelow : ∀ below ∈ rest, below.rests = true := hstack.below
  refine h.keep hkept.accepted (fun hclosed => ⟨hturn.stays hclosed, hkept.started⟩) ?_ ?_
  · intro _
    rw [inFlight_append hbelow, inFlight_nil_of_waits hkept.waits, inFlight_of_waits hwaits,
      hkept.started, line_congr (by rw [hkept.active]) hkept.deferred hkept.queued]
  · intro hopen hopen' hidle hdeferred
    rw [hkept.active] at hidle
    rw [hkept.deferred] at hdeferred
    have hdraining := h.draining hopen hidle hdeferred
    cases code with
    | flushTlsOutput =>
      refine draining_append hdraining rfl ?_
      cases exec_does hexec with
      | leads hleads =>
        cases hleads with
        | callback hcode => simp at hcode
        | _ => simp [Code.sendsDeferred]
      | sets hsets => cases hsets <;> simp
      | _ => simp [Code.sendsDeferred]
    | handleClose =>
      obtain ⟨rfl, rfl⟩ := proceed_pair hexec
      unfold TcpConnection.handleClose at hopen'
      rw [if_neg hopen] at hopen'
      exact absurd rfl hopen'
    | sendInLoop text => cases hmoves
    | drainDeferredSends => cases hmoves
    | _ => exact absurd (deferred_nil h hopen hidle rfl (by simp)) hdeferred

theorem Lined.sends {unit : Numbered (Output Callback)} {text : Numbered (TextSend Callback)}
    {pushed : List (Code Callback)} (h : Lined c (code :: rest))
    (hstack : Stacked c (code :: rest)) (hwaits : code.waits = some unit)
    (hunit : unit = textUnit text ∨ c.activeFileSend = none) (hsends : Sends c unit text c' pushed)
    (hmore : more.filterMap Code.waits = [])
    (hdraining : c.state ≠ .disconnected → c.activeFileSend = none → c.deferredSends ≠ [] →
      Draining (more ++ rest)) : Lined c' (more ++ rest) := by
  have hflight : inFlight (code :: rest) = [unit] := by
    simp [inFlight, hwaits]
  have hbelow : ∀ below ∈ rest, below.rests = true := hstack.below
  have hflight' : inFlight (more ++ rest) = [] := by
    rw [inFlight_append hbelow, inFlight_nil_of_waits hmore]
  -- where the unit is started it leaves the head of the line
  have hstart : ∀ d : TcpConnection Callback, d.started = c.started ++ [unit] →
      d.accepted = c.accepted → d.activeFileSend = c.activeFileSend →
      d.deferredSends = c.deferredSends → d.queuedFileFrames = c.queuedFileFrames →
      c.state ≠ .disconnected → c.activeFileSend = none → Lined d (more ++ rest) := by
    intro d hstarted haccepted hactive hdeferred hqueued hopen hidle
    refine h.keep haccepted (fun hclosed => absurd hclosed hopen) ?_ ?_
    · intro _
      rw [hflight, hflight', hstarted, line_congr (by rw [hactive]) hdeferred hqueued]
      simp [TcpConnection.line, hidle]
    · intro _ _ _ hleft
      rw [hdeferred] at hleft
      exact hdraining hopen hidle hleft
  cases hsends with
  | closed hclosed =>
    exact h.keep rfl (fun _ => ⟨hclosed, rfl⟩) (fun hopen => absurd hclosed hopen)
      (fun hopen => absurd hclosed hopen)
  | deferred hopen hactive =>
    refine h.keep rfl (fun hclosed => absurd hclosed hopen) ?_ ?_
    · intro _
      rcases hunit with rfl | hidle
      · rw [hflight, hflight']
        simp [TcpConnection.line, hactive]
      · rw [hidle] at hactive
        cases hactive
    · intro _ _ hidle
      rw [show c.activeFileSend = none from hidle] at hactive
      cases hactive
  | broke hopen hidle =>
    refine h.keep rfl (fun hclosed => absurd hclosed hopen) ?_
      (fun _ _ _ => hdraining hopen hidle)
    intro _
    rw [hflight, hflight']
    simp [TcpConnection.line, TcpConnection.drop, hidle]
  | gone first rest writing hopen hidle => exact hstart _ rfl rfl rfl rfl rfl hopen hidle
  | kept first rest writing hopen hidle => exact hstart _ rfl rfl rfl rfl rfl hopen hidle
  | sent hopen hidle => exact hstart _ rfl rfl rfl rfl rfl hopen hidle

def TcpConnection.InTurn (c : TcpConnection Callback) : Output Callback → Prop
  | .text _ => c.queuedFileFrames = []
  | .frame _ => c.queuedFileFrames = [] ∨ c.activeFileSend.isSome

theorem Lined.accepts {output : Output Callback} (hline : (c.started ++ c.line []).Sublist c.accepted)
    (hidle : c.activeFileSend = none → c.deferredSends = []) (hturn : c.InTurn output)
    (hrest : ∀ below ∈ rest, below.rests = true) (h : Accepts c output c' more) :
    Lined c' (more ++ rest) := by
  have hstarted : ∀ new : Numbered (Output Callback), c.started.Sublist (c.accepted ++ [new]) :=
    fun new => ((List.sublist_append_left _ _).trans hline).trans (List.sublist_append_left _ _)
  -- the new unit is the last of the line
  have hlast : ∀ {new : Numbered (Output Callback)} {units : List (Numbered (Output Callback))},
      units = c.line [] ++ [new] → (c.started ++ units).Sublist (c.accepted ++ [new]) := by
    rintro new _ rfl
    rw [← List.append_assoc]
    exact hline.append (List.Sublist.refl _)
  cases h with
  | text send =>
    have hqueued : c.queuedFileFrames = [] := hturn
    refine ⟨hstarted _, fun _ => hlast ?_, fun _ hnone hdeferred => absurd (hidle hnone) hdeferred⟩
    rw [inFlight_append hrest]
    cases hactive : c.activeFileSend with
    | none => simp [TcpConnection.line, inFlight, Code.waits, hactive, hqueued, hidle hactive]
    | some file => simp [TcpConnection.line, inFlight, Code.waits, hactive, hqueued]
  | queued frame hactive =>
    refine ⟨hstarted _, fun _ => hlast ?_, fun _ hnone => ?_⟩
    · rw [inFlight_append hrest]
      simp [TcpConnection.line, inFlight]
    · rw [show c.activeFileSend = none from hnone] at hactive
      cases hactive
  | frame frame hnone =>
    have hqueued : c.queuedFileFrames = [] :=
      hturn.resolve_right (by simp [hnone])
    refine ⟨hstarted _, fun _ => hlast ?_, fun _ _ hdeferred => absurd (hidle hnone) hdeferred⟩
    rw [inFlight_append hrest]
    simp [TcpConnection.line, inFlight, Code.waits, hnone, hqueued, hidle hnone]

theorem Lined.call {call : Call Callback} (h : Lined c stack) (hflight : inFlight stack = [])
    (hidle : c.state ≠ .disconnected → c.activeFileSend = none → c.deferredSends = [])
    (hturn : c.connected = true → ∀ output, call.output = some output → c.InTurn output)
    (hrest : ∀ below ∈ rest, below.rests = true) (hcalled : Called c call c' more) :
    Lined c' (more ++ rest) := by
  have hkeep : ∀ d : TcpConnection Callback, d.accepted = c.accepted → d.started = c.started →
      d.activeFileSend = c.activeFileSend → d.deferredSends = c.deferredSends →
      d.queuedFileFrames = c.queuedFileFrames →
      (c.state = .disconnected → d.state = .disconnected) → Lined d ([] ++ rest) := by
    intro d haccepted hstarted hactive hdeferred hqueued hstate
    refine h.keep haccepted (fun hclosed => ⟨hstate hclosed, hstarted⟩) ?_ ?_
    · intro _
      rw [inFlight_append hrest, hflight, hstarted, line_congr (by rw [hactive]) hdeferred hqueued]
      rfl
    · intro hopen _ hnone hleft
      rw [hactive] at hnone
      rw [hdeferred] at hleft
      exact absurd (hidle hopen hnone) hleft
  cases hcalled with
  | ignored => exact hkeep c rfl rfl rfl rfl rfl id
  | accepts hup hcall haccepts =>
    have hopen : c.state ≠ .disconnected := by simp [hup]
    have hline := h.line hopen
    rw [hflight] at hline
    exact .accepts hline (hidle hopen) (hturn (connected_iff.mpr hup) _ hcall) hrest haccepts
  | shutdown hup => exact hkeep _ rfl rfl rfl rfl rfl (by simp [hup])
  | forced hopen =>
    refine hkeep _ rfl rfl rfl rfl rfl fun hclosed => ?_
    simp [hclosed] at hopen

theorem Lined.plain (h : Lined c (code :: rest)) (hbelow : ∀ below ∈ rest, below.rests = true)
    (hwaits : inFlight more = inFlight (code :: rest)) (haccepted : c'.accepted = c.accepted)
    (hstarted : c'.started = c.started)
    (hactive : c'.activeFileSend.isSome = c.activeFileSend.isSome)
    (hdeferred : c'.deferredSends = c.deferredSends)
    (hqueued : c'.queuedFileFrames = c.queuedFileFrames)
    (hstate : c.state = .disconnected → c'.state = .disconnected)
    (hcode : code.sendsDeferred = false) (hdrain : code ≠ .drainDeferredSends) :
    Lined c' (more ++ rest) := by
  refine h.keep haccepted (fun hclosed => ⟨hstate hclosed, hstarted⟩) ?_ ?_
  · intro _
    rw [inFlight_append hbelow, hwaits, hstarted, line_congr hactive hdeferred hqueued]
  · intro hopen _ hnone hleft
    have hidle : c.activeFileSend = none := by
      rw [hnone] at hactive
      exact Option.not_isSome_iff_eq_none.mp (by rw [← hactive]; simp)
    rw [hdeferred] at hleft
    exact absurd (deferred_nil h hopen hidle hcode hdrain) hleft

theorem Sends.pushed {unit : Numbered (Output Callback)} {text : Numbered (TextSend Callback)}
    (h : Sends c unit text c' more) : more = [] ∨ more = [.flushTlsOutput] := by
  cases h with
  | gone _ _ _ _ _ _ _ _ hcode => exact hcode
  | kept _ _ _ _ _ _ _ _ hcode => exact hcode
  | _ => exact Or.inl rfl

theorem Lined.leads (h : Lined c (code :: rest)) (hbelow : ∀ below ∈ rest, below.rests = true)
    (hmoves : code.moves ≠ false) (hleads : Leads c code input more) : Lined c (more ++ rest) := by
  cases hleads with
  | drained hdrained =>
    refine h.keep rfl (fun hclosed => ⟨hclosed, rfl⟩) ?_
      (fun _ _ hidle hleft => absurd (hdrained hidle) hleft)
    intro _
    rw [inFlight_append hbelow]
    rfl
  | idles hidles =>
    cases code with
    | sendInLoop | startFileFrame | sendHeader | activate | drainDeferredSends =>
      exact hidles.elim
    | sendFileBytes | finishActiveFileSend | startNextQueuedFileFrame | user =>
      exact h.plain hbelow rfl rfl rfl rfl rfl rfl id rfl (by simp)
    | _ => exact absurd rfl hmoves
  | fails hfails =>
    cases code with
    | sendInLoop | startFileFrame | sendHeader | activate | finishActiveFileSend
    | drainDeferredSends | startNextQueuedFileFrame | user => exact hfails.elim
    | sendFileBytes => exact h.plain hbelow rfl rfl rfl rfl rfl rfl id rfl (by simp)
    | _ => exact absurd rfl hmoves
  | opened | fileDone | fileAgain =>
    exact h.plain hbelow rfl rfl rfl rfl rfl rfl id rfl (by simp)
  | callback hcode => rcases hcode with rfl | rfl <;> exact absurd rfl hmoves
  | _ => exact absurd rfl hmoves

theorem Lined.exec (h : Lined c (code :: rest)) (hstack : Stacked c (code :: rest))
    (hturn : ∀ call calls, code = .user (call :: calls) → c.connected = true →
      ∀ output, call.output = some output → c.InTurn output)
    (hexec : exec files c code input = some (c', more)) : Lined c' (more ++ rest) := by
  by_cases hmoves : code.moves = false
  · exact h.quiet hstack hmoves hexec
  have hbelow : ∀ below ∈ rest, below.rests = true := hstack.below
  cases exec_does hexec with
  | leads hleads => exact h.leads hbelow hmoves hleads
  | sets hsets =>
    cases hsets with
    | fileBlocked | fileReads =>
      exact h.plain hbelow rfl rfl rfl rfl rfl rfl id rfl (by simp)
    | _ => exact absurd rfl hmoves
  | text text hsends =>
    refine h.sends hstack rfl (Or.inl rfl) hsends ?_ ?_
    · rcases hsends.pushed with rfl | rfl <;> rfl
    · intro hopen hidle hleft
      refine draining_append (h.draining hopen hidle hleft) rfl ?_
      rcases hsends.pushed with rfl | rfl <;> simp [Code.sendsDeferred]
  | header frame hsends =>
    obtain ⟨hidle, hopen⟩ := hstack.poised _ rfl
    refine h.sends hstack rfl (Or.inr hidle) hsends ?_ ?_
    · rcases hsends.pushed with rfl | rfl <;> rfl
    · intro _ _ hleft
      exact absurd (deferred_nil h hopen hidle rfl (by simp)) hleft
  | drops frame hclosed => exact absurd hclosed (hstack.poised _ rfl).2
  | openFails frame hopen =>
    obtain ⟨hidle, -⟩ := hstack.poised _ rfl
    have hdeferred := deferred_nil h hopen hidle rfl (by simp)
    refine h.keep rfl (fun hclosed => absurd hclosed hopen) ?_
      (fun _ _ _ hleft => absurd hdeferred hleft)
    intro _
    simp [TcpConnection.line, TcpConnection.drop, inFlight, hidle, hdeferred, Code.waits]
  | activates frame =>
    refine h.keep rfl (fun hclosed => ⟨hclosed, rfl⟩) ?_ (fun _ _ hnone => by cases hnone)
    intro _
    simp [TcpConnection.line, TcpConnection.activate, inFlight, Code.waits]
  | fileBytes file count hactive =>
    exact h.plain hbelow rfl rfl rfl (by simp [hactive]) rfl rfl id rfl (by simp)
  | finishes file hactive =>
    refine h.keep rfl (fun hclosed => ⟨hclosed, rfl⟩) ?_ (fun _ _ _ _ => rfl)
    intro _
    simp [TcpConnection.line, inFlight, hactive, Code.waits]
  | drains text texts hidle hdeferred =>
    refine h.keep rfl (fun hclosed => ⟨hclosed, rfl⟩) ?_ (fun _ _ _ _ => rfl)
    intro _
    simp [TcpConnection.line, inFlight, hidle, hdeferred, Code.waits]
  | starts frame frames hidle hqueued hopen =>
    have hdeferred := deferred_nil h hopen hidle rfl (by simp)
    refine h.keep rfl (fun hclosed => absurd hclosed hopen) ?_
      (fun _ _ _ hleft => absurd hdeferred hleft)
    intro _
    simp [TcpConnection.line, inFlight, hidle, hqueued, hdeferred, Code.waits]
  | calls call calls =>
    rw [List.append_assoc]
    refine h.call rfl (fun hopen hidle => deferred_nil h hopen hidle rfl (by simp))
      (hturn call calls rfl) ?_ (call_called call)
    intro below hmem
    rcases List.mem_cons.mp hmem with rfl | hmem
    · rfl
    · exact hbelow below hmem
  | _ => exact absurd rfl hmoves

theorem Lined.runFunctor {functor : Functor Callback} (h : Lined c [])
    (hidle : c.state ≠ .disconnected → c.activeFileSend = none → c.deferredSends = [])
    (hturn : c.state ≠ .disconnected → ∀ output, functor.request = some output → c.InTurn output)
    (hran : Ran c functor c' more) : Lined c' more := by
  have hkeep : ∀ more : List (Code Callback), inFlight more = [] → Lined c more := by
    intro more hmore
    refine h.keep rfl (fun hclosed => ⟨hclosed, rfl⟩) ?_ ?_
    · intro _
      rw [hmore]
      rfl
    · intro hopen _ hnone hleft
      exact absurd (hidle hopen hnone) hleft
  cases hran with
  | ignored => exact hkeep [] rfl
  | accepts hopen hfunctor haccepts =>
    rw [← List.append_nil more]
    exact .accepts (h.line hopen) (hidle hopen) (hturn hopen _ hfunctor) (by simp) haccepts
  | closes => exact hkeep _ rfl
  | completion => exact hkeep _ rfl

theorem Posts.kept {call : Call Callback} (h : Posts c call c') : QueuesKept c c' [] := by
  cases h <;> exact ⟨rfl, rfl, rfl, rfl, rfl, rfl, rfl, rfl⟩

theorem Lined.post (h : Lined c stack) (call : Call Callback) : Lined (c.post call) stack := by
  have hposted := post_posted (c := c) call
  have hkept := hposted.kept
  refine h.keep hkept.accepted (fun hclosed => ⟨hposted.begins.state hclosed, hkept.started⟩) ?_ ?_
  · intro _
    rw [hkept.started, line_congr (by rw [hkept.active]) hkept.deferred hkept.queued]
  · intro hopen _ hnone hleft
    rw [hkept.active] at hnone
    rw [hkept.deferred] at hleft
    exact h.draining hopen hnone hleft

theorem Lined.postAll (h : Lined c stack) (calls : List (Call Callback)) :
    Lined (calls.foldl TcpConnection.post c) stack := by
  induction calls generalizing c with
  | nil => exact h
  | cons call calls ih => exact ih (h.post call)

theorem deferred_nil_of_idle (h : Lined c []) (hopen : c.state ≠ .disconnected)
    (hidle : c.activeFileSend = none) : c.deferredSends = [] := by
  by_contra hdeferred
  cases h.draining hopen hidle hdeferred

end Lines

namespace Machine

variable {files : Bytes → Bytes} {user : User Callback Owner Outcome Task}
  {m m' : Machine Callback Owner} {input : Input Callback Outcome Task}

def accepts (m : Machine Callback Owner) (input : Input Callback Outcome Task) :
    Option (Output Callback) :=
  match m.stack, input with
  | .user (call :: _) :: _, .run => if m.conn.connected then call.output else none
  | [], .call call => if m.conn.connected then call.output else none
  | [], .functor =>
    if m.conn.state = .disconnected then none else m.conn.functors.head?.bind Functor.request
  | _, _ => none

/-- Nothing is accepted behind a waiting frame, except a frame while another one is being sent. -/
def InTurn (m : Machine Callback Owner) (input : Input Callback Outcome Task) : Prop :=
  ∀ output, m.accepts input = some output → m.conn.InTurn output

theorem lined_next (h : Lined m.conn m.stack) (hstack : Stacked m.conn m.stack)
    (hturn : m.InTurn input) (hnext : m.next files user input = some m') :
    Lined m'.conn m'.stack := by
  cases next_cases hnext with
  | post call => exact h.post call
  | background task => exact h.postAll _
  | wake _ c more hidle hwake =>
    rw [hidle] at h
    have hdeferred := fun hopen hnone => deferred_nil_of_idle h hopen hnone
    cases wake_wakes hwake with
    | call call hcalled =>
      change Lined c more
      rw [← List.append_nil more]
      refine h.call rfl hdeferred ?_ (by simp) hcalled
      intro hconnected output houtput
      refine hturn output ?_
      unfold accepts
      rw [hidle]
      simp [hconnected, houtput]
    | functor functor functors hfunctors hran =>
      have htaken : Lined { m.conn with functors := functors } [] :=
        ⟨h.started, h.line, h.draining⟩
      refine htaken.runFunctor hdeferred ?_ hran
      intro hopen output houtput
      have hopen' : m.conn.state ≠ .disconnected := hopen
      refine hturn output ?_
      unfold accepts
      rw [hidle]
      simp [hopen', hfunctors, houtput]
    | event harises =>
      obtain ⟨hkept, -, hstate⟩ := harises.kept
      refine h.keep hkept.accepted (fun hclosed => ⟨hstate.mpr hclosed, hkept.started⟩) ?_ ?_
      · intro _
        rw [hkept.started, inFlight_nil_of_waits hkept.waits,
          line_congr (by rw [hkept.active]) hkept.deferred hkept.queued]
        rfl
      · intro hopen _ hnone hleft
        rw [hkept.active] at hnone
        rw [hkept.deferred] at hleft
        exact absurd (hdeferred hopen hnone) hleft
  | complete _ unit rest _ hcompletion hcomplete =>
    rw [hcompletion] at h hstack
    obtain ⟨more, hcalls, hconn, hstack'⟩ := complete_cases hcomplete
    have hbelow : ∀ below ∈ rest, below.rests = true := hstack.below
    rw [hconn, hstack']
    refine h.plain hbelow ?_ rfl rfl rfl rfl rfl id rfl (by simp)
    rcases hcalls with rfl | ⟨calls, rfl⟩ <;> rfl
  | exec _ code rest more c hcode hexec =>
    rw [hcode] at h hstack
    refine h.exec hstack ?_ hexec
    rintro call calls rfl hconnected output houtput
    have hinput : input = .run := by
      cases input <;> first
        | rfl
        | cases hexec
    refine hturn output ?_
    unfold accepts
    rw [hcode, hinput]
    simp [hconnected, houtput]

/-- **Order.** In every run in which nothing is accepted behind a waiting frame, except a frame while
another one is being sent, the started units are in the order in which they were accepted, and
what the socket has taken is the beginning of them. -/
theorem emission_order {tls ktls : Bool} {owner : Owner}
    {inputs : List (Input Callback Outcome Task)} {m : Machine Callback Owner}
    (hrun : Run (fun m input => next m files user input) InTurn (fresh tls ktls owner) inputs m) :
    m.conn.started.Sublist m.conn.accepted ∧ m.conn.accepted.Nodup ∧
      m.conn.emitted <+: concat (Output.bytes files) m.conn.started := by
  have hinv := hrun.invariant
    (fun m => Ordered files (fun _ => True) m ∧ Lined m.conn m.stack) ?_
    ⟨ordered_start files _ tls ktls owner, ⟨.slnil, fun _ => .slnil, fun _ _ h => absurd rfl h⟩⟩
  · obtain ⟨hordered, hlined⟩ := hinv
    exact ⟨hlined.started, hordered.sound.nodup_accepted,
      ⟨_, emitted_append_remaining hordered.sound.written⟩⟩
  · rintro m input m' ⟨hordered, hlined⟩ hturn hnext
    exact ⟨hordered.next (fun _ _ => trivial) (fun _ _ _ _ => trivial) hnext,
      lined_next hlined hordered.stacked hturn hnext⟩

def inTurn (m : Machine Callback Owner) (input : Input Callback Outcome Task) : Bool :=
  match m.accepts input with
  | none => true
  | some (.text _) => m.conn.queuedFileFrames.isEmpty
  | some (.frame _) => m.conn.queuedFileFrames.isEmpty || m.conn.activeFileSend.isSome

theorem inTurn_of_test (m : Machine Callback Owner) (input : Input Callback Outcome Task)
    (h : m.inTurn input = true) : m.InTurn input := by
  intro output houtput
  unfold inTurn at h
  rw [houtput] at h
  cases output with
  | text send => exact List.isEmpty_iff.mp h
  | frame file =>
    rcases Bool.or_eq_true_iff.mp h with hempty | hactive
    · exact Or.inl (List.isEmpty_iff.mp hempty)
    · exact Or.inr hactive

def byteFrame (header : String) : Call Unit := .sendFileFrame (utf8 header) (utf8 "f") 0 1 none

def openFrame : List (Input Unit Unit Unit) :=
  [.connectEstablished, .calls [], .run, .call (byteFrame "F\n"), .opened, .wrote 2, .run, .run,
    .wantWrite]

def closeFrame : List (Input Unit Unit Unit) :=
  [.writable, .run, .wrote 1, .run, .run, .run, .run, .run, .run, .run, .opened, .run, .run,
    .run, .wrote 4]

theorem emission_order_text_then_frame :
    ∃ m, Run (fun m input => next m twoFiles passive input) InTurn (fresh false false ())
        (openFrame ++ [.call (.send (utf8 "t\n") none), .run, .call (byteFrame "G\n")] ++
          closeFrame) m ∧
      m.conn.started.map Numbered.id = [0, 1, 2] ∧ m.conn.started.Sublist m.conn.accepted := by
  have hreplay : (replay (fun m input => next m twoFiles passive input) inTurn
      (fresh false false ()) (openFrame ++ [.call (.send (utf8 "t\n") none), .run,
        .call (byteFrame "G\n")] ++ closeFrame)).any (fun m =>
        decide (m.conn.started.map Numbered.id = [0, 1, 2])) = true := by
    decide +kernel
  obtain ⟨m, hrun, htest⟩ := replay_reaches inTurn_of_test hreplay
  exact ⟨m, hrun, of_decide_eq_true htest, (emission_order hrun).1⟩

/-- **A text overtakes a frame.** Both are accepted while another frame is being sent, the frame
first. -/
theorem text_overtakes_frame :
    ∃ m, Run (fun m input => next m twoFiles passive input) anyStep (fresh false false ())
        (openFrame ++ [.call (byteFrame "G\n"), .call (.send (utf8 "t\n") none), .run] ++
          closeFrame) m ∧
      m.conn.accepted.map Numbered.id = [0, 1, 2] ∧ m.conn.started.map Numbered.id = [0, 2, 1] ∧
      m.conn.emitted = utf8 "F\nht\nG\n" ∧ ¬m.conn.started.Sublist m.conn.accepted := by
  have hreplay : (replay (fun m input => next m twoFiles passive input) (fun _ _ => true)
      (fresh false false ()) (openFrame ++ [.call (byteFrame "G\n"),
        .call (.send (utf8 "t\n") none), .run] ++ closeFrame)).any (fun m =>
        decide (m.conn.accepted.map Numbered.id = [0, 1, 2] ∧
          m.conn.started.map Numbered.id = [0, 2, 1] ∧
          m.conn.emitted = utf8 "F\nht\nG\n")) = true := by
    decide +kernel
  obtain ⟨m, hrun, htest⟩ := replay_reaches (fun _ _ _ => trivial) hreplay
  obtain ⟨haccepted, hstarted, hemitted⟩ := of_decide_eq_true htest
  refine ⟨m, hrun, haccepted, hstarted, hemitted, fun hsublist => ?_⟩
  have hids := hsublist.map Numbered.id
  rw [haccepted, hstarted] at hids
  revert hids
  decide

end Machine

end ChatRoom.Net
