import ChatRoom.Lib.Runs
import ChatRoom.Server.Lookups

/-!
# The heartbeat

`client_heartbeat.cpp` and the server's answer to it, over a connection that keeps the order of the
lines in each direction and carries other lines as well.
-/

namespace ChatRoom.Client

open Transition

/-- Times are in milliseconds. -/
structure ClientHeartbeat where
  pingInterval : Nat := 20000
  pongTimeout : Nat := 60000
  lastPing : Nat
  pendingSince : Nat
  nextNonce : Nat := 1
  pendingNonce : Nat := 0
  waitingForPong : Bool := false

namespace ClientHeartbeat

variable (heartbeat : ClientHeartbeat)

def pingLine (nonce : Nat) : Bytes := utf8 "PING " ++ decimal nonce ++ utf8 "\n"

/-- The line that is sent, or why the connection is given up. `refusal` is the error of `queue_send`,
if it does not accept the line. -/
def tick (now : Nat) (refusal : Option Bytes) : Except Bytes (Option Bytes) × ClientHeartbeat :=
  if heartbeat.waitingForPong then
    if heartbeat.pongTimeout ≤ now - heartbeat.pendingSince then
      (.error (utf8 "服务端未响应客户端 TCP 心跳 PING"), heartbeat)
    else
      (.ok none, heartbeat)
  else if now - heartbeat.lastPing < heartbeat.pingInterval then
    (.ok none, heartbeat)
  else
    let nonce := heartbeat.nextNonce
    let heartbeat := { heartbeat with nextNonce := (nonce + 1) % 2 ^ 64 }
    match refusal with
    | none =>
      (.ok (some (pingLine nonce)),
        { heartbeat with
          lastPing := now
          pendingSince := now
          pendingNonce := nonce
          waitingForPong := true })
    | some error => (.error error, heartbeat)

/-- What the client reads in a line, which ends with a line feed. -/
def pongNonce (line : Bytes) : Option Nat :=
  let command := parseCommand line.dropLast
  if command.name = utf8 "PONG" then parseUint64Value command.rawArguments else none

/-- `consume_protocol_line`, with whether the line is a heartbeat. -/
def consumeProtocolLine (line : Bytes) : Bool × ClientHeartbeat :=
  let name := (parseCommand line.dropLast).name
  (name = utf8 "PONG" || name = utf8 "PING",
    if heartbeat.waitingForPong ∧ pongNonce line = some heartbeat.pendingNonce then
      { heartbeat with waitingForPong := false, pendingNonce := 0 }
    else
      heartbeat)

def pending : List Nat := if heartbeat.waitingForPong then [heartbeat.pendingNonce] else []

end ClientHeartbeat

open ClientHeartbeat

def sentTexts : Handler Unit → List Bytes
  | Interleaving.Prog.act (.send _ text _) _ => [text.bytes]
  | _ => []

/-- What the server sends for a line; `others` if it is no `PING`. -/
def serverAnswers (conn : ConnId) (line : Bytes) (others : List Bytes) : List Bytes :=
  let command := parseCommand line.dropLast
  if command.name = utf8 "PING" then sentTexts (handlePing conn command.rawArguments) else others

/-- What the server reads in a line. -/
def pingNonce (line : Bytes) : Option Nat :=
  let command := parseCommand line.dropLast
  if command.name = utf8 "PING" then parseUint64Value (trim command.rawArguments) else none

structure Link where
  heartbeat : ClientHeartbeat
  toServer : List Bytes := []
  toClient : List Bytes := []

inductive LinkEvent where
  | tick (now : Nat) (refusal : Option Bytes)
  | command (line : Bytes)
  | serve (others : List Bytes)
  | notify (line : Bytes)
  | receive

namespace Link

/-- The client gives the connection up when `tick` fails. -/
def next (conn : ConnId) (link : Link) : LinkEvent → Option Link
  | .tick now refusal =>
    match link.heartbeat.tick now refusal with
    | (.ok line, heartbeat) =>
      some { link with heartbeat, toServer := link.toServer ++ line.toList }
    | (.error _, _) => none
  | .command line => some { link with toServer := link.toServer ++ [line] }
  | .serve others =>
    match link.toServer with
    | [] => none
    | line :: rest =>
      some { link with
        toServer := rest
        toClient := link.toClient ++ serverAnswers conn line others }
  | .notify line => some { link with toClient := link.toClient ++ [line] }
  | .receive =>
    match link.toClient with
    | [] => none
    | line :: rest =>
      some { link with heartbeat := (link.heartbeat.consumeProtocolLine line).2, toClient := rest }

/-- Nobody else writes heartbeats. -/
def OwnHeartbeats (_ : Link) : LinkEvent → Prop
  | .command line => pingNonce line = none
  | .serve others => ∀ line ∈ others, pongNonce line = none
  | .notify line => pongNonce line = none
  | _ => True

/-- The nonces on their way, the oldest first. -/
def inTransit (link : Link) : List Nat :=
  link.toClient.filterMap pongNonce ++ link.toServer.filterMap pingNonce

structure Accounted (link : Link) : Prop where
  nonce : link.heartbeat.nextNonce < 2 ^ 64
  transit : link.inTransit = link.heartbeat.pending

end Link

/-! ### The lines -/

theorem parseCommand_word {name word : Bytes} (hname : IsWord name) (hword : IsWord word) :
    parseCommand (name ++ space :: word) = ⟨toUpperAscii name, word⟩ := by
  have hcleaned : trim (name ++ space :: word) = name ++ space :: word := by
    simpa using trim_words hname hword [space]
  obtain ⟨htake, hdrop⟩ := takeWhile_word hname word
  rw [parseCommand, hcleaned, htake, hdrop, List.drop_one, List.tail_cons, trim_word hword]

theorem parseCommand_nonceLine {name : Bytes} (hname : IsWord name) (nonce : Nat) :
    parseCommand (name ++ space :: decimal nonce ++ utf8 "\n").dropLast =
      ⟨toUpperAscii name, decimal nonce⟩ := by
  have hline : (name ++ space :: decimal nonce ++ utf8 "\n").dropLast =
      name ++ space :: decimal nonce := List.dropLast_concat
  rw [hline, parseCommand_word hname (isWord_decimal nonce)]

theorem pingNonce_pingLine {nonce : Nat} (hnonce : nonce < 2 ^ 64) :
    pingNonce (pingLine nonce) = some nonce := by
  have hparse : parseCommand (pingLine nonce).dropLast = ⟨utf8 "PING", decimal nonce⟩ :=
    parseCommand_nonceLine (⟨by decide, by decide⟩ : IsWord (utf8 "PING")) nonce
  rw [pingNonce, hparse, if_pos rfl, trim_word (isWord_decimal nonce),
    parseUint64Value_decimal hnonce]

theorem pongNonce_pongLine {nonce : Nat} (hnonce : nonce < 2 ^ 64) :
    pongNonce (utf8 "PONG " ++ decimal nonce ++ utf8 "\n") = some nonce := by
  have hparse : parseCommand (utf8 "PONG " ++ decimal nonce ++ utf8 "\n").dropLast =
      ⟨utf8 "PONG", decimal nonce⟩ :=
    parseCommand_nonceLine (⟨by decide, by decide⟩ : IsWord (utf8 "PONG")) nonce
  rw [pongNonce, hparse, if_pos rfl, parseUint64Value_decimal hnonce]

theorem lt_of_parseUint64Value {text : Bytes} {value : Nat}
    (hparse : parseUint64Value text = some value) : value < 2 ^ 64 := by
  unfold parseUint64Value at hparse
  split at hparse
  · cases hparse
  · split at hparse
    · split at hparse <;> cases hparse
      assumption
    · cases hparse

/-- The server answers a heartbeat with its nonce. -/
theorem filterMap_serverAnswers {conn : ConnId} {line : Bytes} {others : List Bytes}
    (hothers : ∀ line ∈ others, pongNonce line = none) :
    (serverAnswers conn line others).filterMap pongNonce = (pingNonce line).toList := by
  dsimp only [serverAnswers, pingNonce]
  split
  · unfold handlePing
    cases hnonce : parseUint64Value (trim (parseCommand line.dropLast).rawArguments) with
    | none => rfl
    | some nonce =>
      have hpong := pongNonce_pongLine (lt_of_parseUint64Value hnonce)
      exact List.filterMap_cons_some hpong
  · exact List.filterMap_eq_nil_iff.mpr hothers

/-! ### Whole runs -/

theorem ClientHeartbeat.tick_cases {heartbeat heartbeat' : ClientHeartbeat} {now : Nat}
    {refusal line : Option Bytes} (htick : heartbeat.tick now refusal = (.ok line, heartbeat')) :
    line = none ∧ heartbeat' = heartbeat ∨
      heartbeat.pending = [] ∧ line = some (pingLine heartbeat.nextNonce) ∧
        heartbeat'.nextNonce < 2 ^ 64 ∧ heartbeat'.pending = [heartbeat.nextNonce] := by
  unfold tick at htick
  split_ifs at htick with hwaiting hlate hearly
  · cases htick
  · cases htick
    exact .inl ⟨rfl, rfl⟩
  · cases htick
    exact .inl ⟨rfl, rfl⟩
  · cases refusal <;> cases htick
    exact .inr ⟨if_neg hwaiting, rfl, Nat.mod_lt _ (by decide), rfl⟩

namespace Link

variable {conn : ConnId} {link link' : Link} {event : LinkEvent} {line : Bytes} {rest : List Bytes}
  {nonce : Nat}

theorem Accounted.pong (hinv : link.Accounted) (hlines : link.toClient = line :: rest)
    (hpong : pongNonce line = some nonce) :
    link.heartbeat.waitingForPong = true ∧ nonce = link.heartbeat.pendingNonce ∧
      rest.filterMap pongNonce ++ link.toServer.filterMap pingNonce = [] := by
  have htransit := hinv.transit
  rw [inTransit, hlines, List.filterMap_cons_some hpong, pending] at htransit
  split at htransit
  · rename_i hwaiting
    exact ⟨hwaiting, List.cons.inj htransit⟩
  · cases htransit

theorem Accounted.next (hinv : link.Accounted) (hown : link.OwnHeartbeats event)
    (hnext : link.next conn event = some link') : link'.Accounted := by
  have hnonce := hinv.nonce
  have htransit := hinv.transit
  unfold inTransit at htransit
  cases event with
  | tick now refusal =>
    simp only [Link.next] at hnext
    split at hnext <;> cases hnext
    rename_i line heartbeat htick
    obtain ⟨rfl, rfl⟩ | ⟨hidle, rfl, hnonce', hpending⟩ := tick_cases htick
    · exact ⟨hnonce, by simpa [inTransit] using htransit⟩
    · refine ⟨hnonce', ?_⟩
      rw [hidle, List.append_eq_nil_iff] at htransit
      simp [inTransit, htransit, pingNonce_pingLine hnonce, hpending]
  | command line =>
    cases hnext
    exact ⟨hnonce, by simpa [inTransit, List.filterMap_cons_none hown] using htransit⟩
  | notify line =>
    cases hnext
    exact ⟨hnonce, by simpa [inTransit, List.filterMap_cons_none hown] using htransit⟩
  | serve others =>
    simp only [Link.next] at hnext
    split at hnext <;> cases hnext
    rename_i line rest hlines
    refine ⟨hnonce, ?_⟩
    rw [hlines] at htransit
    rw [inTransit, List.filterMap_append, filterMap_serverAnswers hown, List.append_assoc]
    cases hping : pingNonce line <;> simpa [hping] using htransit
  | receive =>
    simp only [Link.next] at hnext
    split at hnext <;> cases hnext
    rename_i line rest hlines
    cases hpong : pongNonce line with
    | none =>
      rw [hlines, List.filterMap_cons_none hpong] at htransit
      dsimp only [consumeProtocolLine]
      rw [if_neg (by simp [hpong])]
      exact ⟨hnonce, htransit⟩
    | some nonce =>
      obtain ⟨hwaiting, rfl, hrest⟩ := hinv.pong hlines hpong
      dsimp only [consumeProtocolLine]
      rw [if_pos ⟨hwaiting, hpong⟩]
      exact ⟨hnonce, hrest⟩

/-- **The heartbeat.** In every run in which nobody else writes heartbeats, the client waits exactly
while its `PING` or the `PONG` to it is on the way. So the connection is not given up while nothing
is on the way, and every `PONG` ends the wait. -/
theorem heartbeat_accounted {now : Nat} {events : List LinkEvent}
    (hrun : Run (next conn) OwnHeartbeats { heartbeat := { lastPing := now, pendingSince := now } }
      events link) :
    link.inTransit = link.heartbeat.pending ∧
      (link.inTransit = [] → ∀ now, ∃ line, (link.heartbeat.tick now none).1 = .ok line) ∧
      ∀ line rest nonce, link.toClient = line :: rest → pongNonce line = some nonce →
        link.heartbeat.waitingForPong = true ∧
          (link.heartbeat.consumeProtocolLine line).2.waitingForPong = false := by
  have hinv := hrun.invariant Accounted (fun _ _ _ hinv hown hnext => hinv.next hown hnext)
    ⟨Nat.one_lt_two_pow (by decide), rfl⟩
  refine ⟨hinv.transit, fun hempty now => ?_, fun line rest nonce hlines hpong => ?_⟩
  · have hidle : ¬link.heartbeat.waitingForPong = true := by
      intro hwaiting
      have htransit := hinv.transit
      rw [hempty, pending, if_pos hwaiting] at htransit
      cases htransit
    rw [tick, if_neg hidle]
    split <;> exact ⟨_, rfl⟩
  · obtain ⟨hwaiting, rfl, -⟩ := hinv.pong hlines hpong
    refine ⟨hwaiting, ?_⟩
    dsimp only [consumeProtocolLine]
    rw [if_pos ⟨hwaiting, hpong⟩]

theorem heartbeat_accounted_once :
    ∃ link, Run (next 0) OwnHeartbeats { heartbeat := { lastPing := 0, pendingSince := 0 } }
        ([.tick 20000 none] ++ [.serve []]) link ∧
      link.heartbeat.waitingForPong = true ∧ link.inTransit = [1] := by
  have hticked : Run (next 0) OwnHeartbeats { heartbeat := { lastPing := 0, pendingSince := 0 } }
      [.tick 20000 none] _ := .snoc .nil trivial rfl
  have hserved : Run (next 0) OwnHeartbeats { heartbeat := { lastPing := 0, pendingSince := 0 } }
      ([.tick 20000 none] ++ [.serve []]) _ :=
    .snoc hticked (fun _ hline => absurd hline List.not_mem_nil) rfl
  exact ⟨_, hserved, rfl, (heartbeat_accounted hserved).1⟩

end Link

end ChatRoom.Client
