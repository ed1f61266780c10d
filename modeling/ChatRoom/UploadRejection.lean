import ChatRoom.Segmentation
import ChatRoom.Proof.UploadStream

/-! # A rejected upload -/

namespace ChatRoom

open Handler Interleaving

def Shared.detached (s : Shared) (conn : ConnId) (text : Bytes) : Shared :=
  (s.served conn ((s.sessions conn).assign .detachUpload) s.store).sendText conn text

def filePaused (token reason : Bytes) : Bytes :=
  utf8 "FILE_PAUSED " ++ token ++ utf8 " " ++ percentEncode reason ++ utf8 "\n"

variable {config : ServerConfig} {env : Environment} {conn : ConnId} {history : List Dispatch}
  {s : Shared} {session : ClientSession} {request : Request} {arguments text : Bytes}

section Detached

variable (hconnected : s.connected conn = true)

include hconnected

theorem detached_sent : (s.detached conn text).sent conn = s.sent conn ++ [text] := by
  unfold Shared.detached Shared.sendText
  rw [if_pos (by rwa [served_connected])]
  exact Function.update_self _ _ _

theorem detached_connected : (s.detached conn text).connected conn = true := by
  unfold Shared.detached
  rw [sendText_connected, served_connected, hconnected]

end Detached

theorem detached_session :
    (s.detached conn text).sessions conn = (s.sessions conn).assign .detachUpload := by
  unfold Shared.detached
  rw [sendText_sessions, served_sessions]

theorem serve_detaches (hconnected : s.connected conn = true)
    (hadmissible : admissible s conn request = true) (hrequest : request ≠ .loopCall)
    (hroute : route config true conn (s.sessions conn) request =
      (do assign .detachUpload; send conn text)) :
    Interleaving.serve (server config true) (env.feed history) s ⟨conn, request, []⟩ =
      some (s.detached conn text) := by
  have hphase : s.phase conn = .connected := of_decide_eq_true hconnected
  rw [serve_request hadmissible hrequest, hroute]
  simp [assign, send, act, Prog.perform, complete, Environment.feed, Environment.choice, server, exec,
    Shared.start, Shared.setSession, Shared.finished, Shared.detached, Shared.served, Shared.sendText,
    Shared.sendInLoop, Shared.connected, hphase]

/-! ### While an upload is active -/

theorem handleFileBeginPrivate_active (hlogin : session.loggedIn = true)
    (hactive : session.upload.isSome) :
    ∃ reason, handleFileBeginPrivate conn session arguments =
      rejectFileUpload conn (firstWord (splitWords arguments)) reason := by
  unfold handleFileBeginPrivate requireLogin
  rw [if_pos hlogin]
  dsimp only
  split
  · exact ⟨_, rfl⟩
  · rw [if_pos hactive]
    exact ⟨_, rfl⟩

theorem handleFileBeginGroup_active (hlogin : session.loggedIn = true)
    (hactive : session.upload.isSome) :
    ∃ reason, handleFileBeginGroup conn session arguments =
      rejectFileUpload conn (firstWord (splitWords arguments)) reason := by
  unfold handleFileBeginGroup requireLogin
  rw [if_pos hlogin]
  dsimp only
  split
  · exact ⟨_, rfl⟩
  · rw [if_pos hactive]
    exact ⟨_, rfl⟩

variable (config env history)

theorem serve_fileBegin_active (hconnected : s.connected conn = true)
    (hlogin : (s.sessions conn).loggedIn = true) (hactive : (s.sessions conn).upload.isSome)
    (hrequest : request = .fileBeginPrivate arguments ∨ request = .fileBeginGroup arguments) :
    ∃ reason, Interleaving.serve (server config true) (env.feed history) s ⟨conn, request, []⟩ =
      some (s.detached conn (fileReject (firstWord (splitWords arguments)) reason)) := by
  rcases hrequest with rfl | rfl
  · obtain ⟨reason, hreject⟩ := handleFileBeginPrivate_active hlogin hactive
    exact ⟨reason, serve_detaches hconnected hconnected (by simp) hreject⟩
  · obtain ⟨reason, hreject⟩ := handleFileBeginGroup_active hlogin hactive
    exact ⟨reason, serve_detaches hconnected hconnected (by simp) hreject⟩

/-! ### Without an upload -/

/-- A header or an end without an upload is answered with `FILE_PAUSED`. -/
theorem serve_without_upload (hconnected : s.connected conn = true)
    (hlogin : (s.sessions conn).loggedIn = true) (hnone : (s.sessions conn).upload = none)
    (hrequest : request = .fileChunk arguments ∨ request = .fileEnd arguments) :
    ∃ reason, Interleaving.serve (server config true) (env.feed history) s ⟨conn, request, []⟩ =
      some (s.detached conn (filePaused (firstWord (splitWords arguments)) reason)) := by
  rcases hrequest with rfl | rfl
  · have hparse : ∃ error, parseFileChunk (s.sessions conn) (splitWords arguments) = .error error := by
      unfold parseFileChunk
      split
      · rw [hnone]
        exact ⟨_, rfl⟩
      · exact ⟨_, rfl⟩
    obtain ⟨error, hparse⟩ := hparse
    refine ⟨error, serve_detaches hconnected hconnected (by simp) ?_⟩
    simp only [route, handleFileChunk, requireLogin, hlogin, if_true, hparse]
    rfl
  · refine ⟨utf8 "no matching active upload; resend FILE_BEGIN to resume",
      serve_detaches hconnected hconnected (by simp) ?_⟩
    simp only [route, handleFileEnd, requireLogin, hlogin, if_true, hnone, Option.filter_none]
    rfl

/-- **The running upload is lost.** Every `FILE_BEGIN_*` while an upload is active is answered with
`FILE_REJECT`; the partial file stays, but the session has no upload any more, and whatever headers and
ends follow are answered with `FILE_PAUSED`. -/
theorem rejected_begin_detaches_upload {active : IncomingFileUpload}
    (hconnected : s.connected conn = true) (hlogin : (s.sessions conn).loggedIn = true)
    (hactive : (s.sessions conn).upload = some active)
    (hrequest : request = .fileBeginPrivate arguments ∨ request = .fileBeginGroup arguments) :
    ∃ reason s', Interleaving.serve (server config true) (env.feed history) s ⟨conn, request, []⟩ =
        some s' ∧
      s'.sent conn = s.sent conn ++ [fileReject (firstWord (splitWords arguments)) reason] ∧
      s'.store = s.store ∧ (s'.sessions conn).upload = none ∧ (s'.sessions conn).binaryUpload = none ∧
      ∀ later words history, later = .fileChunk words ∨ later = .fileEnd words →
        ∃ reason s'', Interleaving.serve (server config true) (env.feed history) s'
            ⟨conn, later, []⟩ = some s'' ∧
          s''.sent conn = s'.sent conn ++ [filePaused (firstWord (splitWords words)) reason] := by
  have hsome : (s.sessions conn).upload.isSome := by simp [hactive]
  obtain ⟨reason, hserve⟩ :=
    serve_fileBegin_active config env history hconnected hlogin hsome hrequest
  refine ⟨reason, _, hserve, detached_sent hconnected, ?_, ?_, ?_, ?_⟩
  · unfold Shared.detached
    rw [sendText_store]
    rfl
  · rw [detached_session]
    rfl
  · rw [detached_session]
    rfl
  · intro later words history' hlater
    have hconnected' : (s.detached conn
        (fileReject (firstWord (splitWords arguments)) reason)).connected conn = true :=
      detached_connected hconnected
    obtain ⟨reason', hserve'⟩ := serve_without_upload config env history' hconnected'
      (by rw [detached_session]; exact hlogin) (by rw [detached_session]; rfl) hlater
    exact ⟨reason', _, hserve', detached_sent hconnected'⟩

def otherToken : Bytes := List.replicate 32 49

def otherBegin : Bytes :=
  otherToken ++
    utf8 " bob n 1 2d711642b726b04401627ca9fbac32f5c8530fb1903cc4db02258717921a4881"

theorem firstWord_otherBegin : firstWord (splitWords otherBegin) = otherToken := by decide +kernel

def chunkArguments : Bytes := uploadToken ++ utf8 " 0 3"

theorem rejected_begin_detaches_upload_other :
    ∃ reason s', Interleaving.serve (server scriptConfig true) (quiet.feed []) uploadState
        ⟨0, .fileBeginPrivate otherBegin, []⟩ = some s' ∧
      s'.sent 0 = [fileReject otherToken reason] ∧ (s'.sessions 0).upload = none := by
  have hconnected : uploadState.connected 0 = true := by decide
  obtain ⟨reason, s', hserve, hsent, -, hnone, -⟩ :=
    rejected_begin_detaches_upload scriptConfig quiet [] hconnected rfl rfl (.inl rfl)
  rw [firstWord_otherBegin] at hsent
  exact ⟨reason, s', hserve, hsent, hnone⟩

theorem chunk_paused_after_rejected_begin :
    ((Interleaving.serve (server scriptConfig true) (quiet.feed []) uploadState
        ⟨0, .fileChunk chunkArguments, []⟩).map fun s => s.sent 0) = some [] ∧
      ∃ s' s'' begun paused, Interleaving.serve (server scriptConfig true) (quiet.feed []) uploadState
          ⟨0, .fileBeginPrivate otherBegin, []⟩ = some s' ∧
        Interleaving.serve (server scriptConfig true) (quiet.feed []) s'
          ⟨0, .fileChunk chunkArguments, []⟩ = some s'' ∧
        s''.sent 0 = [fileReject otherToken begun, filePaused uploadToken paused] := by
  constructor
  · decide +kernel
  have hconnected : uploadState.connected 0 = true := by decide
  have hchunk : firstWord (splitWords chunkArguments) = uploadToken := by decide +kernel
  obtain ⟨begun, hserve⟩ :=
    serve_fileBegin_active scriptConfig quiet [] hconnected rfl rfl (.inl rfl)
  have hconnected' : (uploadState.detached 0
      (fileReject (firstWord (splitWords otherBegin)) begun)).connected 0 = true :=
    detached_connected hconnected
  obtain ⟨paused, hserve'⟩ := serve_without_upload scriptConfig quiet [] hconnected'
    (by rw [detached_session]; rfl) (by rw [detached_session]; rfl) (.inl rfl)
  refine ⟨_, _, begun, paused, hserve, hserve', ?_⟩
  rw [detached_sent hconnected', detached_sent hconnected, firstWord_otherBegin, hchunk]
  rfl

end ChatRoom
