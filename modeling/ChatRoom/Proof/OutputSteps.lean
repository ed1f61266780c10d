import ChatRoom.Proof.ConnectionSteps

/-! # Every step of a connection is an entry in its books -/

namespace ChatRoom.Net

open OutputLedger

variable {Callback Owner Outcome Task : Type}

section Stacks

variable {c c' : TcpConnection Callback} {code : Code Callback}
  {rest more : List (Code Callback)}

theorem Stacked.replace (h : Stacked c (code :: rest)) (hopening : code.opening = none)
    (hactive : c'.activeFileSend.toList.length ≤ c.activeFileSend.toList.length)
    (hbroken : c'.broken = true → c.broken = true ∨ rest.filterMap Code.opening = [])
    (hdropped : c.dropped ⊆ c'.dropped) (hclear : c'.state = .disconnected ∨ Clear (more ++ rest))
    (hmore : more.filterMap Code.opening = []) (hrests : ∀ other ∈ more.tail, other.rests = true)
    (hpoised : ∀ other ∈ more.head?, other.Poised c') : Stacked c' (more ++ rest) := by
  have hsame : (more ++ rest).filterMap Code.opening = (code :: rest).filterMap Code.opening := by
    rw [List.filterMap_append, hmore, List.nil_append, List.filterMap_cons, hopening]
  refine ⟨?_, hclear, ?_, ?_, ?_⟩
  · rw [hsame]
    exact (Nat.add_le_add_left hactive _).trans h.alone
  · cases more with
    | nil =>
      intro other hother
      exact poised_of_rests (h.below other (List.mem_of_mem_head? hother))
    | cons first more => exact hpoised
  · cases more with
    | nil =>
      intro other hother
      exact h.below other (List.mem_of_mem_tail hother)
    | cons first more =>
      intro other hother
      rcases List.mem_append.mp hother with hother | hother
      · exact hrests other hother
      · exact h.below other hother
  · rw [hsame]
    intro frame hframe hbreaks
    rcases hbroken hbreaks with hold | hnone
    · exact hdropped (h.opening frame hframe hold)
    · rw [List.filterMap_cons, hopening, hnone] at hframe
      cases hframe

theorem Stacked.clear_more (h : Stacked c (code :: rest)) (hprecedes : code.precedes = false)
    (hmore : more.filterMap Code.opening = [])
    (hstate : c.state = .disconnected → c'.state = .disconnected) :
    c'.state = .disconnected ∨ Clear (more ++ rest) := by
  refine h.clear.imp hstate fun hclear => clear_of_no_opening ?_
  rw [List.filterMap_append, hmore, no_opening_of_clear hclear hprecedes]
  rfl

theorem Stacked.no_opening (h : Stacked c (code :: rest)) (hprecedes : code.precedes = false)
    (hstate : c.state ≠ .disconnected) : rest.filterMap Code.opening = [] :=
  no_opening_of_clear (h.clear.resolve_left hstate) hprecedes

end Stacks

/-- The requests that an input brings along. -/
def Input.outputs : Input Callback Outcome Task → List (Output Callback)
  | .calls made => made.filterMap Call.output
  | .call made | .post made => made.output.toList
  | _ => []

/-- What a code that opens no frame leaves on the stack. -/
structure Shape (code : Code Callback) (more : List (Code Callback)) : Prop where
  opening : code.opening = none
  precedes : code.precedes = true → ∀ other ∈ more, other.precedes = true
  plain : more.filterMap Code.opening = []
  rests : ∀ other ∈ more.tail, other.rests = true

section Shapes

variable {c c' : TcpConnection Callback} {code : Code Callback} {more : List (Code Callback)}
  {input : Input Callback Outcome Task}

theorem Leads.shape (h : Leads c code input more) : Shape code more := by
  cases h with
  | idles h =>
    refine ⟨?_, by simp, rfl, by simp⟩
    cases code <;> first | rfl | cases h
  | fails h =>
    refine ⟨?_, by simp [Code.precedes], rfl, by simp⟩
    cases code <;> first | rfl | cases h
  | resumes hresumes => cases hresumes <;> exact ⟨rfl, nofun, rfl, by simp⟩
  | callback hcode => rcases hcode with rfl | rfl <;> exact ⟨rfl, nofun, rfl, by simp⟩
  | _ => exact ⟨rfl, by simp [Code.precedes], rfl, by simp [Code.rests]⟩

theorem Leads.poised (h : Leads c code input more) (hcode : code.Poised c) :
    ∀ other ∈ more.head?, other.Poised c := by
  cases h with
  | opened => simpa [Code.Poised] using hcode
  | file _ hopen hempty | flushed hopen hempty => simp [Code.Poised, hopen, hempty]
  | fileDone file hactive hdone =>
    obtain ⟨hempty, hopen⟩ := hcode
    simp [Code.Poised, hempty, hopen, hactive, hdone]
  | fileAgain => simpa [Code.Poised] using hcode
  | resumes hresumes => cases hresumes <;> simp [Code.Poised]
  | _ => simp [Code.Poised]

theorem Sets.shape (h : Sets c code input c' more) : Shape code more := by
  cases h with
  | readBlocked => split <;> exact ⟨rfl, nofun, rfl, by simp⟩
  | readDone hresumes => cases hresumes <;> exact ⟨rfl, nofun, rfl, by simp⟩
  | _ => exact ⟨rfl, by simp [Code.precedes], rfl, by simp [Code.rests]⟩

theorem Sets.poised (h : Sets c code input c' more) : ∀ other ∈ more.head?, other.Poised c' := by
  cases h with
  | readBlocked => split <;> simp [Code.Poised]
  | readDone hresumes => cases hresumes <;> simp [Code.Poised]
  | _ => simp [Code.Poised]

end Shapes

/-- **A step of the connection** keeps its invariants, and its books follow by steps of the ledger.
-/
structure Goes (files : Bytes → Bytes) (foreign unsent : Output Callback → Prop)
    (client : Client (Output Callback) Owner Outcome Task)
    (before : Ledger (Output Callback) UInt8 × Owner) (c : TcpConnection Callback)
    (stack : List (Code Callback)) (fired : List (Numbered (Output Callback))) (owner : Owner) :
    Prop where
  stacked : Stacked c stack
  tidy : Tidy c
  steps : Relation.ReflTransGen (Step (Output.bytes files) foreign unsent client) before
    (books files c stack fired, owner)

section Functions

variable {files : Bytes → Bytes} {foreign unsent : Output Callback → Prop}
  {client : Client (Output Callback) Owner Outcome Task}
  {c c' : TcpConnection Callback} {code : Code Callback} {rest more stack : List (Code Callback)}
  {fired : List (Numbered (Output Callback))} {owner : Owner} {input : Input Callback Outcome Task}

theorem goes_same (hstack : Stacked c (code :: rest)) (hshape : Shape code more)
    (hstate : c'.state = c.state) (hactive : c'.activeFileSend = c.activeFileSend)
    (hbroken : c'.broken = c.broken) (hdropped : c'.dropped = c.dropped) (htidy : Tidy c')
    (hpoised : ∀ other ∈ more.head?, other.Poised c')
    (hsteps : Relation.ReflTransGen (Step (Output.bytes files) foreign unsent client)
      (books files c (code :: rest) fired, owner) (books files c' (more ++ rest) fired, owner)) :
    Goes files foreign unsent client (books files c (code :: rest) fired, owner) c' (more ++ rest)
      fired owner := by
  refine ⟨?_, htidy, hsteps⟩
  refine hstack.replace hshape.opening (by rw [hactive]) (fun h => Or.inl (hbroken ▸ h))
    (by rw [hdropped]; exact fun _ h => h) ?_ hshape.plain hshape.rests hpoised
  cases hprecedes : code.precedes with
  | false => exact hstack.clear_more hprecedes hshape.plain fun hclosed => hstate.trans hclosed
  | true =>
    rw [hstate]
    refine hstack.clear.imp_right fun hclear => ?_
    rw [Clear, List.dropWhile_append_of_pos (hshape.precedes hprecedes)]
    rwa [Clear, List.dropWhile_cons_of_pos hprecedes] at hclear

theorem Tidy.flags (h : Tidy c) (hactive : c'.activeFileSend = c.activeFileSend)
    (hbroken : c'.broken = c.broken) (hdropped : c'.dropped = c.dropped)
    (hpending : c'.pendingSendCompletions = c.pendingSendCompletions)
    (hstarted : c'.started = c.started)
    (hsilent : c.broken = true → c'.tls = false ∧ c'.writing = false ∧ c'.outputBuffer = []) :
    Tidy c' where
  silent hbreaks := hsilent (hbroken ▸ hbreaks)
  pending text htext := by
    rw [hstarted]
    exact h.pending text (hpending ▸ htext)
  active file hfile hbreaks := by
    rw [hdropped]
    exact h.active file (hactive ▸ hfile) (hbroken ▸ hbreaks)

/-! ### `sendInLoop` and `startFileFrame` -/

theorem Sends.tidy {unit : Numbered (Output Callback)} {text : Numbered (TextSend Callback)}
    (hunit : text.request.completion.isSome → unit = textUnit text) (htidy : Tidy c)
    (h : Sends c unit text c' more) : Tidy c' := by
  have hstart : ∀ text ∈ c.pendingSendCompletions, textUnit text ∈ c.started ++ [unit] :=
    fun text htext => List.mem_append_left _ (htidy.pending text htext)
  cases h with
  | closed =>
    refine ⟨htidy.silent, htidy.pending, fun file hfile hbroken => ?_⟩
    obtain ⟨hdropped, hcount⟩ := htidy.active file hfile hbroken
    exact ⟨List.mem_append_left _ hdropped, hcount⟩
  | deferred => exact ⟨htidy.silent, htidy.pending, htidy.active⟩
  | broke _ hidle htls hwriting hempty =>
    refine ⟨fun _ => ⟨htls, hwriting, hempty⟩, htidy.pending, fun file hfile => ?_⟩
    change c.activeFileSend = some file at hfile
    rw [hidle] at hfile
    cases hfile
  | gone first later writing _ hidle hlive =>
    have hbroken : c.broken ≠ true := by simp [htidy.unbroken hlive]
    exact ⟨fun h => absurd h hbroken, hstart, fun _ _ h => absurd h hbroken⟩
  | kept first later writing _ hidle hlive _ _ _ hcompletion =>
    have hbroken : c.broken ≠ true := by simp [htidy.unbroken hlive]
    refine ⟨fun h => absurd h hbroken, fun other hother => ?_, fun _ _ h => absurd h hbroken⟩
    rcases List.mem_append.mp hother with hother | hother
    · exact hstart other hother
    · rw [List.mem_singleton.mp hother, ← hunit hcompletion]
      exact List.mem_append_right _ List.mem_cons_self
  | sent _ _ hunbroken =>
    have hbroken : c.broken ≠ true := by simp [hunbroken]
    exact ⟨fun h => absurd h hbroken, hstart, fun _ _ h => absurd h hbroken⟩

theorem Sends.frame {unit : Numbered (Output Callback)} {text : Numbered (TextSend Callback)}
    (h : Sends c unit text c' more) :
    c'.state = c.state ∧ c'.activeFileSend = c.activeFileSend ∧ c.dropped ⊆ c'.dropped ∧
      (more = [] ∨ more = [.flushTlsOutput]) := by
  cases h with
  | closed => exact ⟨rfl, rfl, List.subset_append_left _ _, Or.inl rfl⟩
  | deferred => exact ⟨rfl, rfl, fun _ h => h, Or.inl rfl⟩
  | broke => exact ⟨rfl, rfl, List.subset_append_left _ _, Or.inl rfl⟩
  | gone _ _ _ _ _ _ _ _ hcode => exact ⟨rfl, rfl, fun _ h => h, hcode⟩
  | kept _ _ _ _ _ _ _ _ hcode => exact ⟨rfl, rfl, fun _ h => h, hcode⟩
  | sent => exact ⟨rfl, rfl, fun _ h => h, Or.inl rfl⟩

theorem Sends.breaks {unit : Numbered (Output Callback)} {text : Numbered (TextSend Callback)}
    (h : Sends c unit text c' more) (hbroken : c'.broken = true) :
    c.broken = true ∨ c.state ≠ .disconnected := by
  cases h with
  | broke hstate => exact Or.inr hstate
  | _ => exact Or.inl hbroken

theorem Sends.dropped {unit : Numbered (Output Callback)} {text : Numbered (TextSend Callback)}
    (htidy : Tidy c) (hidle : c.activeFileSend = none) (h : Sends c unit text c' more)
    (hbroken : c'.broken = true) : unit ∈ c'.dropped := by
  cases h with
  | closed => exact List.mem_append_right _ List.mem_cons_self
  | deferred _ hactive => simp [hidle] at hactive
  | broke => exact List.mem_append_right _ List.mem_cons_self
  | gone _ _ _ _ _ hlive => exact absurd hbroken (by simp [TcpConnection.taken, htidy.unbroken hlive])
  | kept _ _ _ _ _ hlive => exact absurd hbroken (by simp [TcpConnection.taken, htidy.unbroken hlive])
  | sent _ _ hunbroken => exact absurd hbroken (by simp [TcpConnection.taken, hunbroken])

theorem goes_sendInLoop {text : Numbered (TextSend Callback)}
    (hsound : Sound (Output.bytes files) unsent (books files c (.sendInLoop text :: rest) fired))
    (hstack : Stacked c (.sendInLoop text :: rest)) (htidy : Tidy c)
    (h : Sends c (textUnit text) text c' more) :
    Goes files foreign unsent client (books files c (.sendInLoop text :: rest) fired, owner) c'
      (more ++ rest) fired owner := by
  obtain ⟨hstate, hactive, hdropped, hmore⟩ := h.frame
  refine ⟨?_, h.tidy (fun _ => rfl) htidy, refines_text hsound hstack h⟩
  have hplain : more.filterMap Code.opening = [] := by
    rcases hmore with rfl | rfl <;> rfl
  refine hstack.replace rfl (by rw [hactive]) ?_ hdropped
    (hstack.clear_more rfl hplain (fun hclosed => hstate.trans hclosed)) hplain ?_ ?_
  · intro hbroken
    exact (h.breaks hbroken).imp id fun hopen => hstack.no_opening rfl hopen
  · rcases hmore with rfl | rfl <;> simp
  · rcases hmore with rfl | rfl <;> simp [Code.Poised]

theorem goes_sendHeader {frame : Numbered (FileFrame Callback)}
    (hstack : Stacked c (.sendHeader frame :: rest)) (htidy : Tidy c)
    (h : Sends c (frameUnit frame) ⟨frame.id, ⟨frame.request.header, none⟩⟩ c' more) :
    Goes files foreign unsent client (books files c (.sendHeader frame :: rest) fired, owner) c'
      (more ++ [.activate frame] ++ rest) fired owner := by
  obtain ⟨hidle, hopen⟩ : c.activeFileSend = none ∧ c.state ≠ .disconnected :=
    hstack.poised _ rfl
  obtain ⟨hstate, hactive, hdropped, hmore⟩ := h.frame
  have hnone := hstack.no_opening rfl hopen
  refine ⟨?_, h.tidy (fun hsome => absurd hsome (by simp)) htidy, refines_header hstack htidy h⟩
  have hopening : (more ++ [Code.activate frame] ++ rest).filterMap Code.opening = [frame] := by
    rcases hmore with rfl | rfl
    · exact congrArg (frame :: ·) hnone
    · exact congrArg (frame :: ·) hnone
  refine ⟨?_, Or.inr ?_, ?_, ?_, ?_⟩
  · rw [hopening, hactive, hidle]
    rfl
  · rcases hmore with rfl | rfl
    · exact hnone
    · exact hnone
  · rcases hmore with rfl | rfl <;> simp [Code.Poised]
  · intro other hother
    rcases hmore with rfl | rfl
    · exact hstack.below other hother
    · rcases List.mem_cons.mp hother with rfl | hother
      · rfl
      · exact hstack.below other hother
  · rw [hopening]
    intro other hother hbroken
    rw [List.mem_singleton.mp hother]
    exact h.dropped htidy hidle hbroken

theorem goes_openFailed {frame : Numbered (FileFrame Callback)}
    (hunsent : unsent (.frame frame.request)) (hstack : Stacked c (.startFileFrame frame :: rest))
    (htidy : Tidy c) :
    Goes files foreign unsent client (books files c (.startFileFrame frame :: rest) fired, owner)
      (c.drop (frameUnit frame)) ([.completion (frameUnit frame), .forceClose] ++ rest) fired
      owner := by
  obtain ⟨hidle, hopen⟩ : c.activeFileSend = none ∧ c.state ≠ .disconnected :=
    hstack.poised _ rfl
  refine ⟨hstack.replace rfl le_rfl Or.inl (List.subset_append_left _ _)
    (hstack.clear_more rfl rfl id) rfl (by simp [Code.rests]) (by simp [Code.Poised]),
    ⟨htidy.silent, htidy.pending, fun file hfile => ?_⟩, refines_openFailed hunsent⟩
  change c.activeFileSend = some file at hfile
  rw [hidle] at hfile
  cases hfile

theorem goes_activate {frame : Numbered (FileFrame Callback)}
    (hstack : Stacked c (.activate frame :: rest)) (htidy : Tidy c) :
    Goes files foreign unsent client (books files c (.activate frame :: rest) fired, owner)
      (c.activate frame) ([.flushFileSend] ++ rest) fired owner := by
  have hopening : (Code.activate frame :: rest).filterMap Code.opening =
      frame :: rest.filterMap Code.opening := rfl
  have halone := hstack.alone
  rw [hopening, List.length_cons] at halone
  have hrest : rest.filterMap Code.opening = [] := List.length_eq_zero_iff.mp (by omega)
  have hflush : ([Code.flushFileSend] ++ rest).filterMap Code.opening = [] := hrest
  refine ⟨⟨?_, Or.inr (clear_of_no_opening hflush), ?_, hstack.below, ?_⟩, ⟨htidy.silent,
    htidy.pending, ?_⟩, steps_to .refl (refines_activate hstack)⟩
  · rw [hflush]
    simp [TcpConnection.activate]
  · simp [Code.Poised]
  · rw [hflush]
    intro other hother
    cases hother
  · intro file hfile hbroken
    cases hfile
    exact ⟨hstack.opening frame (by rw [hopening]; exact List.mem_cons_self) hbroken, rfl⟩

theorem goes_fileBytes {file : PendingFileSend Callback} {count : Nat}
    (hstack : Stacked c (.sendFileBytes :: rest)) (htidy : Tidy c)
    (hactive : c.activeFileSend = some file)
    (htakes : c.takes count (min file.remaining c.sendLimit) = true) :
    Goes files foreign unsent client (books files c (.sendFileBytes :: rest) fired, owner)
      { c with
        emitted := c.emitted ++ fileBytes files file.frame.request.path file.offset count
        activeFileSend := some { file with
          offset := file.offset + count
          remaining := file.remaining - count } }
      ([.sendFileBytes] ++ rest) fired owner := by
  obtain ⟨hempty, hopen⟩ : c.outputBuffer = [] ∧ c.state ≠ .disconnected := hstack.poised _ rfl
  obtain ⟨⟨-, hle⟩, hbroken⟩ := takes_iff.mp htakes
  refine ⟨?_, ⟨htidy.silent, htidy.pending, fun _ _ hbreaks => absurd hbreaks (by simp [hbroken])⟩,
    refines_fileBytes hstack hactive hbroken (hle.trans (Nat.min_le_left _ _))⟩
  exact hstack.replace rfl (by rw [hactive]; rfl) Or.inl (fun _ h => h)
    (hstack.clear_more rfl rfl id) rfl (by simp) (by simp [Code.Poised, hempty, hopen])

theorem goes_finish {file : PendingFileSend Callback}
    (hzero : ∀ frame : FileFrame Callback, frame.byteCount = 0 → unsent (.frame frame))
    (hsound : Sound (Output.bytes files) unsent
      (books files c (.finishActiveFileSend :: rest) fired))
    (hstack : Stacked c (.finishActiveFileSend :: rest)) (htidy : Tidy c)
    (hactive : c.activeFileSend = some file) :
    Goes files foreign unsent client (books files c (.finishActiveFileSend :: rest) fired, owner)
      { c with activeFileSend := none }
      ([.drainDeferredSends, .completion (frameUnit file.frame), .startNextQueuedFileFrame,
        .settleWriting] ++ rest) fired owner := by
  refine ⟨?_, ⟨htidy.silent, htidy.pending, fun _ hfile => by cases hfile⟩,
    refines_finish hzero hsound hstack htidy hactive⟩
  exact hstack.replace rfl (Nat.zero_le _) Or.inl (fun _ h => h) (hstack.clear_more rfl rfl id) rfl
    (by simp [Code.rests]) (by simp [Code.Poised])

/-! ### Code that changes nothing, or flags only -/

theorem goes_leads (hforeign : ∀ output ∈ input.outputs, foreign output)
    (hstack : Stacked c (code :: rest)) (htidy : Tidy c) (h : Leads c code input more) :
    Goes files foreign unsent client (books files c (code :: rest) fired, owner) c (more ++ rest)
      fired owner := by
  refine goes_same hstack h.shape rfl rfl rfl rfl htidy (h.poised (hstack.poised _ rfl)) ?_
  cases h with
  | idles h =>
    cases code with
    | user calls =>
      cases calls with
      | nil => exact .refl
      | cons => cases h
    | _ => first | exact .refl | cases h
  | fails h => cases code <;> first | exact .refl | cases h
  | resumes hresumes => cases hresumes <;> exact .refl
  | callback hcode calls => rcases hcode with rfl | rfl <;> exact refines_callback hforeign
  | _ => exact .refl

theorem Sets.tidy (htidy : Tidy c) (h : Sets c code input c' more) : Tidy c' := by
  have hsecure : c.tls = true → c.broken = false := by
    intro htls
    by_contra hbroken
    rw [(htidy.silent (by simpa using hbroken)).1] at htls
    cases htls
  have hlive : ∀ {d : TcpConnection Callback}, d.activeFileSend = c.activeFileSend →
      d.broken = c.broken → d.dropped = c.dropped →
      d.pendingSendCompletions = c.pendingSendCompletions → d.started = c.started →
      c.broken = false → Tidy d :=
    fun hactive hbreaks hdropped hpending hstarted hbroken =>
      htidy.flags hactive hbreaks hdropped hpending hstarted fun h => by simp [hbroken] at h
  cases h with
  | settles _ hempty =>
    exact htidy.flags rfl rfl rfl rfl rfl fun hbroken => ⟨(htidy.silent hbroken).1, rfl, hempty⟩
  | fileBlocked hbroken => exact hlive rfl rfl rfl rfl rfl hbroken
  | readDone => exact htidy.flags rfl rfl rfl rfl rfl htidy.silent
  | fileReads htls | flushBlocked htls | flushReads htls | readBlocked _ htls | greets htls
  | handshaken htls | handshakeReads htls | handshakeBlocked htls =>
    exact hlive rfl rfl rfl rfl rfl (hsecure htls)

theorem goes_sets (hstack : Stacked c (code :: rest)) (htidy : Tidy c)
    (h : Sets c code input c' more) :
    Goes files foreign unsent client (books files c (code :: rest) fired, owner) c' (more ++ rest)
      fired owner := by
  have hkept : c'.state = c.state ∧ c'.activeFileSend = c.activeFileSend ∧ c'.broken = c.broken ∧
      c'.dropped = c.dropped := by
    cases h <;> exact ⟨rfl, rfl, rfl, rfl⟩
  obtain ⟨hstate, hactive, hbroken, hdropped⟩ := hkept
  refine goes_same hstack h.shape hstate hactive hbroken hdropped (h.tidy htidy) h.poised ?_
  cases h with
  | readBlocked => split <;> exact .refl
  | readDone hresumes => cases hresumes <;> exact .refl
  | _ => exact .refl

/-! ### Flushing the buffer -/

theorem Tidy.emit (h : Tidy c) {count limit : Nat} (htakes : c.takes count limit = true) :
    Tidy (c.emit count) := by
  obtain ⟨-, hbroken⟩ := takes_iff.mp htakes
  exact h.flags rfl rfl rfl rfl rfl fun hbreaks => absurd hbreaks (by simp [hbroken])

theorem Tidy.finishOutputCompletions (h : Tidy c) : Tidy c.finishOutputCompletions :=
  ⟨h.silent, fun _ htext => (List.not_mem_nil htext).elim, h.active⟩

theorem goes_flushed (hsound : Sound (Output.bytes files) unsent
      (books files c (.flushTlsOutput :: rest) fired))
    (hstack : Stacked c (.flushTlsOutput :: rest)) (htidy : Tidy c) (htls : c.tls = true)
    (hempty : c.outputBuffer = []) :
    Goes files foreign unsent client (books files c (.flushTlsOutput :: rest) fired, owner)
      { c with
          tlsWriteBlockedOnRead := false
          writing := c.writing && c.tlsReadBlockedOnWrite }.finishOutputCompletions
      ([] ++ rest) fired owner := by
  refine goes_same hstack ⟨rfl, by simp, rfl, by simp⟩ rfl rfl rfl rfl ?_ (by simp)
    (refines_flushed hempty htidy.pending hsound)
  refine Tidy.finishOutputCompletions (htidy.flags rfl rfl rfl rfl rfl fun hbroken => ?_)
  rw [(htidy.silent hbroken).1] at htls
  cases htls

theorem goes_write {count : Nat}
    (hsound : Sound (Output.bytes files) unsent (books files c (.handlePlainWrite :: rest) fired))
    (hstack : Stacked c (.handlePlainWrite :: rest)) (htidy : Tidy c)
    (htakes : c.takes count c.outputBuffer.length = true)
    (hempty : (c.emit count).outputBuffer = []) :
    Goes files foreign unsent client (books files c (.handlePlainWrite :: rest) fired, owner)
      { c.emit count with writing := false }.finishOutputCompletions ([] ++ rest) fired owner := by
  have hwrite : Step (Output.bytes files) foreign unsent client
      (books files c (.handlePlainWrite :: rest) fired, owner)
      (books files (c.emit count) rest fired, owner) :=
    .write (c.outputBuffer.take count) _ (List.take_append_drop count _).symm
  have hemit := htidy.emit htakes
  refine goes_same hstack ⟨rfl, nofun, rfl, by simp⟩ rfl rfl rfl rfl ?_ (by simp)
    (.head hwrite (refines_flushed hempty htidy.pending (hwrite.sound hsound)))
  refine Tidy.finishOutputCompletions (hemit.flags rfl rfl rfl rfl rfl fun hbreaks => ?_)
  exact ⟨(hemit.silent hbreaks).1, rfl, hempty⟩

theorem goes_close (hstack : Stacked c (.handleClose :: rest)) (htidy : Tidy c) :
    Goes files foreign unsent client (books files c (.handleClose :: rest) fired, owner)
      { c with state := .disconnected, writing := false }
      ((if c.applicationEstablished then [.connectionCallback] else []) ++ rest) fired owner := by
  have hclosed : Tidy { c with state := .disconnected, writing := false } :=
    htidy.flags rfl rfl rfl rfl rfl fun hbroken =>
      ⟨(htidy.silent hbroken).1, rfl, (htidy.silent hbroken).2.2⟩
  split
  · exact ⟨hstack.replace rfl le_rfl Or.inl (fun _ h => h) (Or.inl rfl) rfl (by simp)
      (by simp [Code.Poised]), hclosed, .refl⟩
  · exact ⟨hstack.replace rfl le_rfl Or.inl (fun _ h => h) (Or.inl rfl) rfl (by simp) (by simp),
      hclosed, .refl⟩

/-! ### Calls and functors -/

theorem stacked_of_plain (hmore : more.filterMap Code.opening = [])
    (hrests : ∀ other ∈ more.tail, other.rests = true)
    (hpoised : ∀ other ∈ more.head?, other.Poised c) : Stacked c more where
  alone := by
    rw [hmore]
    cases c.activeFileSend <;> simp
  clear := Or.inr (clear_of_no_opening hmore)
  poised := hpoised
  below := hrests
  opening := by
    rw [hmore]
    intro frame hframe
    cases hframe

/-- What a call or a functor leaves alone. -/
structure Begins (c c' : TcpConnection Callback) (more : List (Code Callback)) : Prop where
  state : c.state = .disconnected → c'.state = .disconnected
  active : c'.activeFileSend = c.activeFileSend
  broken : c'.broken = c.broken
  dropped : c'.dropped = c.dropped
  started : c'.started = c.started
  deferred : c'.deferredSends = c.deferredSends
  tidy : Tidy c → Tidy c'
  plain : more.filterMap Code.opening = []
  poised : ∀ other ∈ more.head?, other.Poised c'
  single : more.tail = []

theorem Begins.of_same (hstate : c.state = .disconnected → c'.state = .disconnected)
    (hactive : c'.activeFileSend = c.activeFileSend) (hbroken : c'.broken = c.broken)
    (hdropped : c'.dropped = c.dropped) (hstarted : c'.started = c.started)
    (hdeferred : c'.deferredSends = c.deferredSends)
    (hpending : c'.pendingSendCompletions = c.pendingSendCompletions) (htls : c'.tls = c.tls)
    (hwriting : c'.writing = c.writing) (hbuffer : c'.outputBuffer = c.outputBuffer)
    (hplain : more.filterMap Code.opening = []) (hpoised : ∀ other ∈ more.head?, other.Poised c')
    (hsingle : more.tail = []) : Begins c c' more := by
  refine ⟨hstate, hactive, hbroken, hdropped, hstarted, hdeferred, fun htidy => ?_, hplain, hpoised,
    hsingle⟩
  refine htidy.flags hactive hbroken hdropped hpending hstarted ?_
  rw [htls, hwriting, hbuffer]
  exact htidy.silent

theorem begins_nothing : Begins c c [] :=
  .of_same id rfl rfl rfl rfl rfl rfl rfl rfl rfl rfl (by simp) rfl

theorem Accepts.begins {output : Output Callback} (hopen : c.state ≠ .disconnected)
    (h : Accepts c output c' more) : Begins c c' more := by
  cases h with
  | text | queued =>
    exact .of_same id rfl rfl rfl rfl rfl rfl rfl rfl rfl rfl (by simp [Code.Poised]) rfl
  | frame frame hidle =>
    exact .of_same id rfl rfl rfl rfl rfl rfl rfl rfl rfl rfl (by simp [Code.Poised, hidle, hopen])
      rfl

theorem Called.begins {call : Call Callback} (h : Called c call c' more) : Begins c c' more := by
  cases h with
  | ignored => exact begins_nothing
  | accepts hup _ h => exact h.begins (by simp [hup])
  | shutdown hup =>
    exact .of_same (by simp [hup]) rfl rfl rfl rfl rfl rfl rfl rfl rfl rfl (by simp) rfl
  | forced hopen =>
    refine .of_same (fun hclosed => ?_) rfl rfl rfl rfl rfl rfl rfl rfl rfl rfl (by simp) rfl
    simp [hclosed] at hopen

theorem Posts.begins {call : Call Callback} (h : Posts c call c') : Begins c c' [] := by
  cases h with
  | ignored => exact begins_nothing
  | queued => exact .of_same id rfl rfl rfl rfl rfl rfl rfl rfl rfl rfl (by simp) rfl
  | shutdown hup =>
    exact .of_same (by simp [hup]) rfl rfl rfl rfl rfl rfl rfl rfl rfl rfl (by simp) rfl
  | forced hopen =>
    refine .of_same (fun hclosed => ?_) rfl rfl rfl rfl rfl rfl rfl rfl rfl rfl (by simp) rfl
    simp [hclosed] at hopen

theorem Ran.begins {functor : Functor Callback} (h : Ran c functor c' more) : Begins c c' more := by
  cases h with
  | ignored => exact begins_nothing
  | accepts hopen _ h => exact h.begins hopen
  | closes | completion =>
    exact .of_same id rfl rfl rfl rfl rfl rfl rfl rfl rfl rfl (by simp [Code.Poised]) rfl

theorem goes_user {call : Call Callback} {calls : List (Call Callback)}
    (hstack : Stacked c (.user (call :: calls) :: rest)) (htidy : Tidy c) :
    Goes files foreign unsent client (books files c (.user (call :: calls) :: rest) fired, owner)
      (c.call call).1 ((c.call call).2 ++ [.user calls] ++ rest) fired owner := by
  have hbegins := (call_called (c := c) call).begins
  have hplain : ((c.call call).2 ++ [Code.user calls]).filterMap Code.opening = [] := by
    rw [List.filterMap_append, hbegins.plain]
    rfl
  refine ⟨?_, hbegins.tidy htidy, refines_user call calls⟩
  refine hstack.replace rfl (by rw [hbegins.active]) (fun h => Or.inl (hbegins.broken ▸ h))
    (by rw [hbegins.dropped]; exact fun _ h => h)
    (hstack.clear_more rfl hplain hbegins.state) hplain ?_ ?_
  · have hsingle := hbegins.single
    revert hsingle
    cases (c.call call).2 with
    | nil => simp
    | cons first more =>
      intro hsingle
      have hnone : more = [] := hsingle
      simp [hnone, Code.rests]
  · have hpoised := hbegins.poised
    revert hpoised
    cases (c.call call).2 with
    | nil => simp [Code.Poised]
    | cons first more => exact id

/-! ### The machine -/

/-- The code on top of the stack runs. -/
theorem exec_goes
    (hzero : ∀ frame : FileFrame Callback, frame.byteCount = 0 → unsent (.frame frame))
    (hfails : ∀ frame, code = .startFileFrame frame → input = .openFailed →
      unsent (.frame frame.request))
    (hforeign : ∀ output ∈ input.outputs, foreign output)
    (hsound : Sound (Output.bytes files) unsent (books files c (code :: rest) fired))
    (hstack : Stacked c (code :: rest)) (htidy : Tidy c)
    (h : exec files c code input = some (c', more)) :
    Goes files foreign unsent client (books files c (code :: rest) fired, owner) c' (more ++ rest)
      fired owner := by
  cases exec_does h with
  | leads h => exact goes_leads hforeign hstack htidy h
  | sets h => exact goes_sets hstack htidy h
  | text text hsends => exact goes_sendInLoop hsound hstack htidy hsends
  | header frame hsends => exact goes_sendHeader hstack htidy hsends
  | drops frame hclosed => exact absurd hclosed (hstack.poised _ rfl).2
  | openFails frame => exact goes_openFailed (hfails frame rfl rfl) hstack htidy
  | activates frame => exact goes_activate hstack htidy
  | fileBytes file count hactive htakes => exact goes_fileBytes hstack htidy hactive htakes
  | finishes file hactive => exact goes_finish hzero hsound hstack htidy hactive
  | drains text texts _ hdeferred =>
    exact goes_same hstack ⟨rfl, nofun, rfl, by simp [Code.rests]⟩ rfl rfl rfl rfl
      (htidy.flags rfl rfl rfl rfl rfl htidy.silent) (by simp [Code.Poised])
      (steps_to .refl (refines_drain hdeferred))
  | starts frame frames hidle hqueued hopen =>
    exact goes_same hstack ⟨rfl, nofun, rfl, by simp⟩ rfl rfl rfl rfl
      (htidy.flags rfl rfl rfl rfl rfl htidy.silent) (by simp [Code.Poised, hidle, hopen])
      (steps_to .refl (refines_startNext hqueued))
  | flushed htls _ _ hempty => exact goes_flushed hsound hstack htidy htls hempty
  | flushes count _ htakes =>
    exact goes_same hstack ⟨rfl, by simp [Code.precedes], rfl, by simp⟩ rfl rfl rfl rfl
      (htidy.emit htakes) (by simp [Code.Poised]) (refines_emit count)
  | writes count _ htakes =>
    exact goes_same hstack ⟨rfl, nofun, rfl, by simp⟩ rfl rfl rfl rfl (htidy.emit htakes) (by simp)
      (refines_emit count)
  | writesAll count _ htakes hempty => exact goes_write hsound hstack htidy htakes hempty
  | closes => exact goes_close hstack htidy
  | forces hopen =>
    refine ⟨hstack.replace rfl le_rfl Or.inl (fun _ h => h) (hstack.clear_more rfl rfl ?_) rfl
      (by simp) (by simp), htidy.flags rfl rfl rfl rfl rfl htidy.silent, ?_⟩
    · intro hclosed
      simp [hclosed] at hopen
    · exact steps_to .refl (books_functor rfl rfl { c with state := .disconnecting }).symm
  | calls call calls => exact goes_user hstack htidy

/-- A connection with an empty stack wakes. -/
theorem wake_goes (hforeign : ∀ output ∈ input.outputs, foreign output) (htidy : Tidy c)
    (h : wake c input = some (c', more)) :
    Goes files foreign unsent client (books files c [] fired, owner) c' more fired owner := by
  have hquiet : ∀ {d : TcpConnection Callback} {more : List (Code Callback)}, Tidy d →
      more.filterMap Code.opening = [] → (∀ other ∈ more.tail, other.rests = true) →
      (∀ other ∈ more.head?, other.Poised d) → books files c [] fired = books files d more fired →
      Goes files foreign unsent client (books files c [] fired, owner) d more fired owner :=
    fun htidy hmore hrests hpoised hbooks =>
      ⟨stacked_of_plain hmore hrests hpoised, htidy, steps_to .refl hbooks⟩
  cases wake_wakes h with
  | call call hcalled =>
    have hbegins := hcalled.begins
    refine ⟨stacked_of_plain hbegins.plain (by simp [hbegins.single]) hbegins.poised,
      hbegins.tidy htidy, (steps_requestAll hforeign).trans ?_⟩
    obtain ⟨rfl, rfl⟩ := some_pair h
    rw [← List.append_nil (c.call call).2]
    exact refines_call call
  | functor functor functors hfunctors hran =>
    have hbegins := hran.begins
    refine ⟨stacked_of_plain hbegins.plain (by simp [hbegins.single]) hbegins.poised,
      hbegins.tidy (htidy.flags rfl rfl rfl rfl rfl htidy.silent), ?_⟩
    simp only [wake, hfunctors] at h
    obtain ⟨rfl, rfl⟩ := some_pair h
    have hsteps : Relation.ReflTransGen (Step (Output.bytes files) foreign unsent client)
        (books files c [] fired, owner) (books files _ (_ ++ []) fired, owner) :=
      refines_functor hfunctors
    rwa [List.append_nil] at hsteps
  | event harises =>
    cases harises with
    | write hresumes => cases hresumes <;> exact hquiet htidy rfl (by simp) (by simp [Code.Poised]) rfl
    | _ =>
      exact hquiet (htidy.flags rfl rfl rfl rfl rfl htidy.silent) rfl (by simp [Code.rests])
        (by simp [Code.Poised]) rfl

end Functions

/-- The user of a connection as a client of the ledger, which sees its requests only. -/
def User.client (user : User Callback Owner Outcome Task) :
    Client (Output Callback) Owner Outcome Task where
  completed output opened outcome owner :=
    match output.completion with
    | none => (owner, [])
    | some callback =>
      let (owner, calls) := user.completed callback opened outcome owner
      (owner, calls.filterMap Call.output)
  background task opened owner :=
    let (owner, calls) := user.background task opened owner
    (owner, calls.filterMap Call.output)

namespace Machine

variable {files : Bytes → Bytes} {foreign unsent : Output Callback → Prop}
  {user : User Callback Owner Outcome Task} {m m' : Machine Callback Owner}
  {input : Input Callback Outcome Task}

def ledger (files : Bytes → Bytes) (m : Machine Callback Owner) : Ledger (Output Callback) UInt8 :=
  books files m.conn m.stack m.fired

theorem post_state {c : TcpConnection Callback} (call : Call Callback)
    (h : (c.post call).state = .disconnected) : c.state = .disconnected := by
  generalize hpost : c.post call = c' at h
  cases hpost ▸ post_posted (c := c) call <;> first | exact h | cases h

theorem stacked_post {stack : List (Code Callback)} {c : TcpConnection Callback}
    (call : Call Callback) (h : Stacked c stack) : Stacked (c.post call) stack := by
  have hbegins := (post_posted (c := c) call).begins
  have hbuffer : (c.post call).outputBuffer = c.outputBuffer := by
    cases call <;> simp only [TcpConnection.post, TcpConnection.forceClose] <;> split <;> rfl
  have hopen : c.state ≠ .disconnected → (c.post call).state ≠ .disconnected := mt (post_state call)
  have hpoised : ∀ code : Code Callback, code.Poised c → code.Poised (c.post call) := by
    intro code hcode
    cases code <;> first
      | trivial
      | (simp only [Code.Poised, hbegins.active, hbuffer] at hcode ⊢
         exact hcode.imp_right hopen)
      | (simp only [Code.Poised, hbegins.active, hbuffer] at hcode ⊢
         exact hcode.imp_right (And.imp_left hopen))
  refine ⟨?_, h.clear.imp hbegins.state id, fun code hcode => hpoised code (h.poised code hcode),
    h.below, ?_⟩
  · rw [hbegins.active]
    exact h.alone
  · rw [hbegins.broken, hbegins.dropped]
    exact h.opening

theorem post_goes {stack : List (Code Callback)} {c : TcpConnection Callback}
    (calls : List (Call Callback)) (hstack : Stacked c stack) (htidy : Tidy c) :
    Stacked (calls.foldl TcpConnection.post c) stack ∧ Tidy (calls.foldl TcpConnection.post c) := by
  induction calls generalizing c with
  | nil => exact ⟨hstack, htidy⟩
  | cons call calls ih => exact ih (stacked_post call hstack) ((post_posted call).begins.tidy htidy)

/-- A completion runs, and the owner answers with calls. -/
theorem complete_goes {unit : Numbered (Output Callback)} {rest : List (Code Callback)}
    (hstack : Stacked m.conn (.completion unit :: rest)) (htidy : Tidy m.conn)
    (h : m.complete user unit rest input = some m') :
    Goes files foreign unsent user.client
      (books files m.conn (.completion unit :: rest) m.fired, m.owner) m'.conn m'.stack m'.fired
      m'.owner := by
  have hready : (books files m.conn (.completion unit :: rest) m.fired).ready =
      (books files m.conn rest m.fired).ready + {unit} := by
    simp only [books, List.filterMap_cons, Code.ready, coe_cons_eq]
    abel
  unfold complete at h
  split at h
  · obtain ⟨-, rfl⟩ := proceed_eq_some h
    have hpopped : Stacked m.conn ([] ++ rest) :=
      hstack.replace rfl le_rfl Or.inl (fun _ h => h) (hstack.clear_more rfl rfl id) rfl (by simp)
        (by simp)
    exact ⟨hpopped, htidy, .single (.discard unit _ hready)⟩
  · rename_i callback hcallback
    split at h
    · rename_i outcome
      cases h
      have hcalled : Stacked m.conn
          ([.user (user.completed callback m.conn.connected outcome m.owner).2] ++ rest) :=
        hstack.replace rfl le_rfl Or.inl (fun _ h => h) (hstack.clear_more rfl rfl id) rfl (by simp)
          (by simp [Code.Poised])
      refine ⟨hcalled, htidy, ?_⟩
      have hcompleted : user.client.completed unit.request m.conn.connected outcome m.owner =
          ((user.completed callback m.conn.connected outcome m.owner).1,
            (user.completed callback m.conn.connected outcome m.owner).2.filterMap Call.output) := by
        simp only [User.client, hcallback]
      have hfire : Step (Output.bytes files) foreign unsent user.client
          (books files m.conn (.completion unit :: rest) m.fired, m.owner) (_, _) :=
        .fire unit _ m.conn.connected outcome hready
      rw [hcompleted] at hfire
      refine steps_to (.single hfire) ?_
      apply Ledger.ext <;> try rfl
      simp only [books, List.flatMap_cons, Code.requests, ← Multiset.coe_add, List.nil_append]
      abel
    · cases h

/-- The moves of the machine. -/
inductive Move (files : Bytes → Bytes) (user : User Callback Owner Outcome Task)
    (m : Machine Callback Owner) : Input Callback Outcome Task → Machine Callback Owner → Prop where
  | post (call : Call Callback) : Move files user m (.post call) { m with conn := m.conn.post call }
  | background (task : Task) :
      Move files user m (.background task)
        { m with
          owner := (user.background task m.conn.connected m.owner).1
          conn := (user.background task m.conn.connected m.owner).2.foldl TcpConnection.post m.conn }
  | wake (input : Input Callback Outcome Task) (c : TcpConnection Callback)
      (more : List (Code Callback)) (hidle : m.stack = []) (hwake : wake m.conn input = some (c, more)) :
      Move files user m input { m with conn := c, stack := more }
  | complete (input : Input Callback Outcome Task) (unit : Numbered (Output Callback))
      (rest : List (Code Callback)) (m' : Machine Callback Owner)
      (hstack : m.stack = .completion unit :: rest)
      (hcomplete : m.complete user unit rest input = some m') : Move files user m input m'
  | exec (input : Input Callback Outcome Task) (code : Code Callback)
      (rest more : List (Code Callback)) (c : TcpConnection Callback)
      (hstack : m.stack = code :: rest) (hexec : exec files m.conn code input = some (c, more)) :
      Move files user m input { m with conn := c, stack := more ++ rest }

theorem next_cases (h : m.next files user input = some m') : Move files user m input m' := by
  unfold next at h
  split at h
  · cases h
    exact .post _
  · cases h
    exact .background _
  · split at h
    · rename_i hidle
      obtain ⟨⟨c, more⟩, hwake, rfl⟩ := Option.map_eq_some_iff.mp h
      exact .wake _ c more hidle hwake
    · rename_i unit rest hstack
      exact .complete _ unit rest m' hstack h
    · rename_i code rest _ hstack
      obtain ⟨⟨c, more⟩, hexec, rfl⟩ := Option.map_eq_some_iff.mp h
      exact .exec _ code rest more c hstack hexec

/-- **Simulation.** Every move of the machine is a sequence of steps of the ledger. -/
theorem next_goes
    (hzero : ∀ frame : FileFrame Callback, frame.byteCount = 0 → unsent (.frame frame))
    (hfails : ∀ frame rest, m.stack = .startFileFrame frame :: rest → input = .openFailed →
      unsent (.frame frame.request))
    (hforeign : ∀ output ∈ input.outputs, foreign output)
    (hsound : Sound (Output.bytes files) unsent (m.ledger files))
    (hstack : Stacked m.conn m.stack) (htidy : Tidy m.conn)
    (h : m.next files user input = some m') :
    Goes files foreign unsent user.client (m.ledger files, m.owner) m'.conn m'.stack m'.fired
      m'.owner := by
  cases next_cases h with
  | post call =>
    exact ⟨stacked_post call hstack, (post_posted call).begins.tidy htidy,
      (steps_requestAll hforeign).trans (refines_post call)⟩
  | background task =>
    obtain ⟨hstacked, htidied⟩ := post_goes (user.background task m.conn.connected m.owner).2
      hstack htidy
    exact ⟨hstacked, htidied, .head (.background task m.conn.connected) (refines_postAll _)⟩
  | wake _ c more hidle hwake =>
    unfold ledger
    rw [hidle]
    exact wake_goes hforeign htidy hwake
  | complete _ unit rest _ hcompletion hcomplete =>
    unfold ledger
    rw [hcompletion] at hstack ⊢
    exact complete_goes hstack htidy hcomplete
  | exec _ code rest more c hcode hexec =>
    unfold ledger at hsound ⊢
    rw [hcode] at hsound hstack ⊢
    refine exec_goes hzero ?_ hforeign hsound hstack htidy hexec
    rintro frame rfl
    exact hfails frame rest hcode

/-- **The invariant** of the machine: of its stack, its fields and its books. -/
structure Ordered (files : Bytes → Bytes) (unsent : Output Callback → Prop)
    (m : Machine Callback Owner) : Prop where
  stacked : Stacked m.conn m.stack
  tidy : Tidy m.conn
  sound : Sound (Output.bytes files) unsent (m.ledger files)

theorem ordered_start (files : Bytes → Bytes) (unsent : Output Callback → Prop) (tls ktls : Bool)
    (owner : Owner) :
    Ordered files unsent
      ({ conn := { tls := tls, ktls := ktls }, owner := owner } : Machine Callback Owner) where
  stacked := stacked_of_plain rfl (by simp) (by simp)
  tidy := ⟨fun h => absurd h (by simp), by simp, by simp⟩
  sound := sound_empty

theorem Ordered.next (hordered : Ordered files unsent m)
    (hzero : ∀ frame : FileFrame Callback, frame.byteCount = 0 → unsent (.frame frame))
    (hfails : ∀ frame rest, m.stack = .startFileFrame frame :: rest → input = .openFailed →
      unsent (.frame frame.request))
    (h : m.next files user input = some m') : Ordered files unsent m' := by
  have hgoes : Goes files (fun _ => True) unsent user.client (m.ledger files, m.owner) m'.conn
      m'.stack m'.fired m'.owner :=
    next_goes hzero hfails (fun _ _ => trivial) hordered.sound hordered.stacked hordered.tidy h
  exact ⟨hgoes.stacked, hgoes.tidy, steps_sound hordered.sound hgoes.steps⟩

end Machine

end ChatRoom.Net
