import ChatRoom.Transfers

/-! # Commands of clients that are not logged in -/

namespace ChatRoom

open Interleaving Transition Typestate

variable {marking mayRegister : Bool} {session : ClientSession} {arguments : Bytes}
  {request : Request}

/-! ### Sessions without a user -/

/-- A frame is pending in a session with a user only. -/
def ClientSession.OwnsFrame (session : ClientSession) : Prop :=
  session.binaryUpload.isSome = true → session.loggedIn = true

structure FrameBooks (conn : ConnId) (st : Progress) (s : Shared) : Prop
    extends UploadBooks conn st s where
  noBinary : st.noBinary = true → (s.sessions conn).binaryUpload = none
  launched : st.task.session.OwnsFrame

def transferLayer : Layer where
  inv := fun s => ∀ conn, (s.sessions conn).OwnsUpload ∧ (s.sessions conn).OwnsFrame
  rely := fun conn s s' => (s'.sessions conn).upload = (s.sessions conn).upload ∧
    (s'.sessions conn).binaryUpload = (s.sessions conn).binaryUpload
  cond := fun _ _ _ _ => True
  shown := fun _ _ _ _ _ => True
  tracks := FrameBooks

section Steps

variable {crypto : Crypto} {conn : ConnId} {action : Act} {choice : Choice} {st : Progress}
  {s s' : Shared} {result : action.Result}

def ClientSession.frameOwner (session : ClientSession) : Option PendingBinaryUploadFrame × Bool :=
  (session.binaryUpload, session.loggedIn)

theorem frameOwner_change (hchange : Change conn s action s') :
    ((∀ a, action ≠ .assign a) ∧
      ∀ other, (s'.sessions other).frameOwner = (s.sessions other).frameOwner) ∨
      ∃ a, action = .assign a ∧ s' = s.setSession conn ((s.sessions conn).assign a) :=
  hchange.session_field ClientSession.frameOwner (fun _ _ => rfl) fun _ _ _ => rfl

theorem ClientSession.OwnsFrame.congr {session' : ClientSession}
    (hsame : session'.frameOwner = session.frameOwner) (howns : session.OwnsFrame) :
    session'.OwnsFrame := by
  obtain ⟨hframe, hloggedIn⟩ := Prod.mk.inj hsame
  unfold OwnsFrame
  rw [hframe, hloggedIn]
  exact howns

namespace FrameBooks

theorem ownsFrame_assign {a : Assign} (hbooks : FrameBooks conn st s)
    (htracks : Tracks conn st s.view) (howns : (s.sessions conn).OwnsFrame)
    (hmay : st.MayAssign a) : ((s.sessions conn).assign a).OwnsFrame := by
  have hloggedIn : (s.sessions conn).loggedIn = st.core.loggedIn := by rw [← htracks.core]; rfl
  have hnone : (s.sessions conn).binaryUpload = none → ∀ session : ClientSession,
      session.binaryUpload = (s.sessions conn).binaryUpload → session.OwnsFrame := by
    intro hnone session hsame hsome
    rw [hsame, hnone] at hsome
    cases hsome
  cases a with
  | login username => exact fun _ => rfl
  | logout => exact hnone (hbooks.noBinary hmay.2.2.1) _ rfl
  | accountDeleted => exact hnone (hbooks.noBinary hmay.2.2.2.2.2.1) _ rfl
  | detachUpload | dropBinaryUpload | frameStored => exact fun hsome => nomatch hsome
  | binaryUpload frame =>
    intro _
    refine hloggedIn.trans ?_
    rcases hmay.2 with hlogged | ⟨hpending, hsame⟩
    · exact hlogged
    · exact hsame.trans (hbooks.launched hpending)
  | _ => exact howns

theorem ownsFrame_step (hbooks : FrameBooks conn st s) (hallowed : st.Allowed action)
    (hexec : exec crypto conn action choice s = some (result, s'))
    (hinv : ∀ other, (s.sessions other).OwnsFrame) (htracks : Tracks conn st s.view)
    (other : ConnId) : (s'.sessions other).OwnsFrame := by
  rcases frameOwner_change (Change.of_exec hexec) with ⟨-, hsame⟩ | ⟨a, rfl, rfl⟩
  · exact (hinv other).congr (hsame other)
  · by_cases heq : other = conn
    · subst heq
      simpa [Shared.setSession] using hbooks.ownsFrame_assign htracks (hinv other) hallowed
    · simpa [Shared.setSession, Function.update_of_ne heq] using hinv other

theorem noBinary_assign {a : Assign} (hbooks : FrameBooks conn st s)
    (hnone : (st.afterAssign a).noBinary = true) :
    ((s.sessions conn).assign a).binaryUpload = none := by
  cases a with
  | detachUpload | dropBinaryUpload | frameStored => rfl
  | binaryUpload frame => cases hnone
  | _ => exact hbooks.noBinary hnone

theorem noBinary_step (hbooks : FrameBooks conn st s)
    (hexec : exec crypto conn action choice s = some (result, s'))
    (hnone : (st.after action result).noBinary = true) :
    (s'.sessions conn).binaryUpload = none := by
  rcases frameOwner_change (Change.of_exec hexec) with ⟨hassign, hsame⟩ | ⟨a, rfl, rfl⟩
  · rw [(Prod.mk.inj (hsame conn)).1]
    by_cases hsession : action = .session
    · subst hsession
      cases choice <;> cases hexec
      exact Option.isNone_iff_eq_none.mp hnone
    · rw [(st.kept_after action result).noBinary hassign hsession] at hnone
      exact hbooks.noBinary hnone
  · simpa [Shared.setSession] using hbooks.noBinary_assign hnone

theorem step (hbooks : FrameBooks conn st s) (hallowed : st.Allowed action)
    (hexec : exec crypto conn action choice s = some (result, s')) :
    FrameBooks conn (st.after action result) s' where
  toUploadBooks := hbooks.toUploadBooks.step hallowed hexec
  noBinary := hbooks.noBinary_step hexec
  launched := by
    rw [(st.kept_after action result).task]
    exact hbooks.launched

end FrameBooks

theorem transferRely_step {other : ConnId} (hne : other ≠ conn)
    (hexec : exec crypto conn action choice s = some (result, s')) :
    transferLayer.rely other s s' := by
  have hchange := Change.of_exec hexec
  constructor
  · rcases uploadOwner_change hchange with ⟨-, hsame⟩ | ⟨a, rfl, rfl⟩
    · exact upload_of_uploadOwner (hsame other)
    · simp [Shared.setSession, Function.update_of_ne hne]
  · rcases frameOwner_change hchange with ⟨-, hsame⟩ | ⟨a, rfl, rfl⟩
    · exact (Prod.mk.inj (hsame other)).1
    · simp [Shared.setSession, Function.update_of_ne hne]

end Steps

theorem transferLayer_sound (crypto : Crypto) : transferLayer.Sound crypto where
  stable := by
    rintro conn st s s' - ⟨hupload, hframe⟩ - hbooks
    exact { hbooks with
      noUpload := fun hnone => hupload.trans (hbooks.noUpload hnone)
      noBinary := fun hnone => hframe.trans (hbooks.noBinary hnone) }
  step := by
    intro conn st action choice result s s' hallowed _ hinv htracks hbooks _ hexec
    refine ⟨fun other => ⟨?_, ?_⟩, fun other hne => transferRely_step hne hexec, trivial,
      hbooks.step hallowed hexec⟩
    · exact hbooks.ownsUpload_step hallowed hexec (fun other => (hinv other).1) htracks other
    · exact hbooks.ownsFrame_step hallowed hexec (fun other => (hinv other).2) htracks other
  start := by
    rintro conn task s s' - hinv ⟨hsession, loopCalls, rfl, -, -⟩
    refine ⟨hinv, fun other hne => ⟨rfl, rfl⟩, ⟨⟨nofun, nofun⟩, nofun, ?_⟩⟩
    change task.session.OwnsFrame
    rw [hsession.session]
    exact (hinv conn).2
  finish := by
    intro conn st choice s _ hinv _ _
    exact ⟨hinv, fun other hne => ⟨rfl, rfl⟩, trivial⟩

variable {config : ServerConfig} {useCache : Bool} {conn : ConnId}

/-- A session without a user has neither an upload nor a pending frame. -/
def ClientSession.Detached (session : ClientSession) : Prop :=
  session.loggedIn = false → session.upload = none ∧ session.binaryUpload = none

theorem detached_of_run {db : Database} {store : Store} {events : List ServerEvent}
    {state : ServerConfiguration}
    (hrun : Run (server config useCache).next anyStep (initial db store) events state)
    (conn : ConnId) : (state.shared.sessions conn).Detached := by
  have hinitial : transferLayer.inv { db, store } := fun _ => ⟨nofun, nofun⟩
  have hinv := ((transferLayer_sound config.crypto).run hinitial
    (Layer.run_meets transferLayer (fun _ _ _ _ => trivial) hrun)).2
  obtain ⟨hupload, hframe⟩ := hinv conn
  intro hout
  constructor
  · cases hactive : (state.shared.sessions conn).upload with
    | none => rfl
    | some upload => cases hout.symm.trans (hupload upload hactive).1
  · cases hpending : (state.shared.sessions conn).binaryUpload with
    | none => rfl
    | some frame => cases hout.symm.trans (hframe (by rw [hpending]; rfl))

/-! ### Handlers without a user -/

/-- The actions that change neither the tables nor the upload store; with `marking = false` they
leave nothing to be marked as delivered either. -/
def Act.quiet (marking : Bool) : Act → Bool
  | .update _ | .beginOrResumeUpload _ | .appendUploadBytes _ _ _ | .finalizeUpload _
  | .cancelUpload _ | .removeStored _ | .finish => false
  | .send _ _ completion => marking || completion.isNone
  | _ => true

/-- What a request may do for a session without a user: nothing to the tables and to the upload
store, except that one row is inserted for a user while `mayRegister`. -/
def outsider (marking : Bool) : Typestate Act Act.Result Bool where
  allowed mayRegister action := action.quiet marking = true ∨ action = .finish ∨
    mayRegister = true ∧ ∃ username encoded, action = .update (.createUser username encoded)
  after mayRegister action _ :=
    match action with
    | .update _ => false
    | _ => mayRegister

theorem quiet_of_allowed {st : Progress} {action : Act} (hallowed : st.Allowed action)
    (hsigned : ¬st.task.Signed) (hclient : st.task.request.fromClient = true)
    (hregisters : st.task.request.registers = false) :
    action.quiet st.task.request.logsIn = true := by
  cases action with
  | update u =>
    rcases hallowed.2.2 with h | h | h
    · exact absurd h hsigned
    · cases hregisters.symm.trans h
    · cases hclient.symm.trans h
  | finish => exact hallowed.elim
  | send target text completion =>
    cases completion with
    | none => exact Bool.or_true _
    | some mark =>
      have hlogsIn := (hallowed.2 mark rfl).2.2.resolve_left hsigned
      rw [hlogsIn]
      rfl
  | beginOrResumeUpload => exact absurd hallowed.2.2 hsigned
  | appendUploadBytes | cancelUpload => exact absurd hallowed hsigned
  | removeStored => exact absurd hallowed.2 hsigned
  | finalizeUpload upload =>
    have hended := hallowed.1
    unfold Task.endedUpload at hended
    split at hended
    · exact absurd (.inr (.inl (by rw [hended]; rfl))) hsigned
    · cases hended
  | _ => rfl

/-- Without a user, what the discipline allows is quiet. -/
theorem Disciplined.outsider {task : Task} {handler : Handler Unit}
    (hdisciplined : Disciplined crypto task handler) (hout : task.session.loggedIn = false)
    (hdetached : task.session.Detached) (hclient : task.request.fromClient = true)
    (hregisters : task.request.registers = false) :
    (outsider task.request.logsIn).Keeps handler mayRegister fun _ _ => True := by
  have hsigned : ¬task.Signed := by
    obtain ⟨hupload, hframe⟩ := hdetached hout
    simp [Task.Signed, hout, hupload, hframe]
  refine (hdisciplined.simulates (R := fun st _ => st.task = task) ?_ rfl).mono fun _ _ _ => trivial
  rintro st _ action rfl hallowed
  exact ⟨.inl (quiet_of_allowed hallowed hsigned hclient hregisters),
    fun result => (st.kept_after action result).task⟩

theorem outsider_register :
    (outsider marking).Keeps (handleRegister conn session arguments) true fun _ _ => True := by
  have hsend : ∀ {mayRegister : Bool} {text : Bytes},
      (outsider marking).Keeps (Handler.send conn text) mayRegister fun _ _ => True :=
    keeps_perform.mpr ⟨.inl (Bool.or_true _), fun _ => trivial⟩
  unfold handleRegister
  dsimp only
  split
  · exact hsend
  split
  · split
    · exact hsend
    refine ⟨.inl rfl, fun taken => ?_⟩
    rcases taken with error | taken
    · exact hsend
    cases taken with
    | true => exact hsend
    | false =>
      refine ⟨.inl rfl, fun hashed => ?_⟩
      cases hashed with
      | none => exact hsend
      | some encoded =>
        refine ⟨.inr (.inr ⟨rfl, _, _, rfl⟩), fun created => ?_⟩
        cases created <;> exact hsend
  · exact hsend

theorem outsider_thenFinish {handler : Handler Unit}
    (hhandler : (outsider marking).Keeps handler mayRegister fun _ _ => True) :
    (outsider marking).Keeps (thenFinish handler) mayRegister fun _ _ => True :=
  keeps_bind.mpr (hhandler.mono fun _ _ _ => keeps_perform.mpr ⟨.inr (.inl rfl), fun _ => trivial⟩)

theorem outsider_launch {s s' : Shared} {prog : Handler Unit} (hclient : request.fromClient = true)
    (hout : (s.sessions conn).loggedIn = false) (hdetached : (s.sessions conn).Detached)
    (hlaunch : launch config useCache conn request s = some (prog, s')) :
    (outsider request.logsIn).Keeps prog request.registers fun _ _ => True := by
  by_cases hloop : request = .loopCall
  · subst hloop
    simp only [launch, admissible, if_true, Option.map_eq_some_iff] at hlaunch
    obtain ⟨⟨call, loopCalls⟩, -, heq⟩ := hlaunch
    cases heq
    have hdisciplined : Disciplined config.crypto ⟨conn, .loopCall, s.sessions conn, some call⟩
      (runLoopCall conn (s.sessions conn) call) := disciplined_runLoopCall rfl
    exact outsider_thenFinish (hdisciplined.outsider hout hdetached rfl rfl)
  · rw [launch_route hloop] at hlaunch
    split at hlaunch
    · cases hlaunch
      refine outsider_thenFinish ?_
      cases hregisters : request.registers with
      | false =>
        exact (disciplined_route ⟨conn, request, s.sessions conn, none⟩ rfl).outsider hout hdetached
          hclient hregisters
      | true =>
        cases request with
        | register arguments => exact outsider_register
        | _ => cases hregisters
    · cases hlaunch

/-! ### Runs -/

/-- A step of a request leaves the upload store and the tables alone, or it is the one by which
`REGISTER` adds a user. -/
def Harmless (request : Request) (s s' : Shared) : Prop :=
  s'.store = s.store ∧ (s'.db = s.db ∨
    request.registers = true ∧ ∃ user, s'.db = { s.db with users := s.db.users ++ [user] })

theorem outsider_exec {action : Act} {choice : Choice} {s s' : Shared} {result : action.Result}
    (hallowed : (outsider marking).allowed mayRegister action)
    (hexec : exec config.crypto conn action choice s = some (result, s')) :
    s'.store = s.store ∧ (s'.db = s.db ∨
      mayRegister = true ∧ (outsider marking).after mayRegister action result = false ∧
        ∃ user, s'.db = { s.db with users := s.db.users ++ [user] }) := by
  rcases hallowed with hquiet | rfl | ⟨hmay, username, encoded, rfl⟩
  · have hstoring : action.storing = false := by
      cases action <;> first | rfl | cases hquiet
    refine ⟨(Change.of_exec hexec).store hstoring, .inl (exec_frame ?_ ?_ hexec).1⟩
    · rintro u rfl
      cases hquiet
    · rintro rfl
      cases hquiet
  · rw [exec_finish hexec]
    exact ⟨rfl, .inl rfl⟩
  · refine ⟨(Change.of_exec hexec).store rfl, ?_⟩
    rcases (exec_update hexec).2 with hdb | ⟨-, value, happly⟩
    · exact .inl hdb
    · refine .inr ⟨hmay, rfl, (username, encoded), ?_⟩
      change s.db.createUser username encoded = .ok (value, s'.db) at happly
      unfold Database.createUser at happly
      split at happly
      · cases happly
      · exact (Prod.mk.inj (Except.ok.inj happly)).2.symm

/-- The connection takes a step some time after a state and before it starts another request. -/
def StepsLater (config : ServerConfig) (useCache : Bool) (conn : ConnId)
    (state before after : ServerConfiguration) : Prop :=
  (∃ events, Run (server config useCache).next (GoesOn conn) state events before) ∧
    ∃ choice, (server config useCache).next before (.step conn choice) = some after

theorem StepsLater.allowed {P : Bool → Prop} (hfalse : P false)
    {state before after : ServerConfiguration}
    (hsteps : StepsLater config useCache conn state before after)
    (hstart : ∃ mayRegister, P mayRegister ∧
      (outsider marking).Keeps (state.code conn) mayRegister fun _ _ => True) :
    ∃ mayRegister action next choice result, P mayRegister ∧
      (outsider marking).allowed mayRegister action ∧ before.code conn = .act action next ∧
      exec config.crypto conn action choice before.shared = some (result, after.shared) ∧
      (outsider marking).Keeps (after.code conn)
        ((outsider marking).after mayRegister action result) fun _ _ => True := by
  obtain ⟨⟨events, hrun⟩, choice, hnext⟩ := hsteps
  have hafter : ∀ mayRegister action (result : action.Result), P mayRegister →
      P ((outsider marking).after mayRegister action result) := by
    intro mayRegister action result hmay
    cases action with
    | update u => exact hfalse
    | _ => exact hmay
  obtain ⟨mayRegister, hmay, hkeeps⟩ := Keeps.run hafter hstart hrun
  obtain ⟨_, _, _, hevent, -⟩ | ⟨_, _, action, next, result, hevent, hcode, hexec, hcode'⟩ :=
    System.next_cases hnext
  · cases hevent
  · cases hevent
    rw [hcode] at hkeeps
    refine ⟨mayRegister, action, next, choice, result, hmay, hkeeps.1, hcode, hexec, ?_⟩
    rw [hcode', Function.update_self]
    exact hkeeps.2 result

/-- **Commands without a login have no effect.** A session without a user has neither an upload nor
a pending frame. What such a client sends leaves the tables and the upload store alone, in every
step and whatever the other connections do, except that `REGISTER` adds one user; and only a `LOGIN`
writes lines that are marked as delivered later. -/
theorem unauthenticated_requests_harmless {db : Database} {store : Store}
    {events : List ServerEvent} {state : ServerConfiguration}
    (hrun : Run (server config useCache).next anyStep (initial db store) events state) :
    (∀ conn, (state.shared.sessions conn).loggedIn = false →
      (state.shared.sessions conn).upload = none ∧
        (state.shared.sessions conn).binaryUpload = none) ∧
    ∀ conn request launched, (state.shared.sessions conn).loggedIn = false →
      request.fromClient = true →
      (server config useCache).next state (.start conn request) = some launched →
      launched.shared.db = state.shared.db ∧ launched.shared.store = state.shared.store ∧
      ∀ before after, StepsLater config useCache conn launched before after →
        Harmless request before.shared after.shared ∧
        (request.logsIn = false → ∀ target text mark next,
          before.code conn ≠ .act (.send target text (some mark)) next) ∧
        (after.shared.db ≠ before.shared.db → ∀ before' after',
          StepsLater config useCache conn after before' after' →
          after'.shared.db = before'.shared.db) := by
  refine ⟨detached_of_run hrun, fun conn request launched hout hclient hstart => ?_⟩
  obtain ⟨_, _, prog, hevent, -, hlaunch, hcode⟩ | ⟨_, _, _, _, _, hevent, -⟩ :=
    System.next_cases hstart
  swap
  · cases hevent
  cases hevent
  obtain ⟨task, handler, -, ⟨-, loopCalls, hshared, -⟩, -⟩ := launch_cases hlaunch
  have hkeeps : ∃ mayRegister, (mayRegister = true → request.registers = true) ∧
      (outsider request.logsIn).Keeps (launched.code conn) mayRegister fun _ _ => True := by
    refine ⟨request.registers, id, ?_⟩
    rw [hcode, Function.update_self]
    exact outsider_launch hclient hout (detached_of_run hrun conn) hlaunch
  refine ⟨by rw [hshared]; rfl, by rw [hshared]; rfl, fun before after hsteps => ?_⟩
  obtain ⟨mayRegister, action, next, choice, result, hmay, hallowed, hbefore, hexec, hrest⟩ :=
    hsteps.allowed nofun hkeeps
  obtain ⟨hstore, hdb⟩ := outsider_exec hallowed hexec
  refine ⟨⟨hstore, hdb.imp_right fun ⟨hmay', _, hadds⟩ => ⟨hmay hmay', hadds⟩⟩,
    fun hlogsIn target text mark next' hsend => ?_, fun hchanged before' after' hlater => ?_⟩
  · cases hbefore.symm.trans hsend
    rcases hallowed with hquiet | hfinish | ⟨-, _, _, hupdate⟩
    · rw [hlogsIn] at hquiet
      cases hquiet
    · cases hfinish
    · cases hupdate
  · -- the row has been inserted, and the rest of the handler may not insert another
    rcases hdb with hsame | ⟨-, hspent, -⟩
    · exact absurd hsame hchanged
    rw [hspent] at hrest
    obtain ⟨_, _, _, _, _, rfl, hallowed', -, hexec', -⟩ :=
      hlater.allowed (P := fun mayRegister => mayRegister = false) rfl ⟨false, rfl, hrest⟩
    rcases (outsider_exec hallowed' hexec').2 with hsame | ⟨hmay', -⟩
    · exact hsame
    · cases hmay'

def amyLeavesUpload : List (ConnId × Request) :=
  [(0, .connect), (0, .login (utf8 "amy pw")),
    (0, .fileBeginPrivate (uploadToken ++
      utf8 " bob note 5 36bbe50ed96841d10443bcb670d6554f0a34b761be67ec9c4a8ad2c0c44ca42c")),
    (0, .fileChunk (uploadToken ++ utf8 " 0 3")), (0, .fileFrame (utf8 "abc")), (0, .logout)]

theorem unauthenticated_abort_harmless :
    ∃ events state launched,
      Run (server scriptConfig true).next anyStep (initial friendTables {}) events state ∧
      (state.shared.sessions 0).loggedIn = false ∧ (state.shared.sessions 0).upload = none ∧
      (server scriptConfig true).next state (.start 0 (.fileAbort uploadToken)) = some launched ∧
      ∀ before after, StepsLater scriptConfig true 0 launched before after →
        Harmless (.fileAbort uploadToken) before.shared after.shared := by
  have hserved : ((serveAll (server scriptConfig true) usualFeed { db := friendTables, store := {} }
      (served amyLeavesUpload)).any fun s =>
        !(s.sessions 0).loggedIn && s.connected 0 && (s.sent 0).any fun text =>
          text = utf8 "[system] 退出登录成功。\n") = true := by
    decide +kernel
  obtain ⟨events, state, halone, hended, htest⟩ := served_alone hserved
  simp only [Bool.and_eq_true, Bool.not_eq_true'] at htest
  obtain ⟨⟨hout, hconnected⟩, -⟩ := htest
  have hrun : Run (server scriptConfig true).next anyStep (initial friendTables {}) events state :=
    halone.mono fun _ _ _ => trivial
  obtain ⟨hdetached, hharmless⟩ := unauthenticated_requests_harmless hrun
  obtain ⟨launched, hlaunched⟩ : ∃ launched,
      (server scriptConfig true).next state (.start 0 (.fileAbort uploadToken)) = some launched := by
    simp [System.next, hended, server, launch, admissible, hconnected]
  exact ⟨events, state, launched, hrun, hout, (hdetached 0 hout).1, hlaunched,
    fun before after hsteps =>
      ((hharmless 0 _ launched hout rfl hlaunched).2.2 before after hsteps).1⟩

end ChatRoom
