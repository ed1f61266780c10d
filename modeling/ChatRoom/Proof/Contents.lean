import ChatRoom.Proof.Tracking

/-! # What is stored as messages -/

namespace ChatRoom

open Interleaving Database

def Update.content : Update → Option Bytes
  | .addMessage payload | .addPrivateMessageWithDelivery payload => some payload.content
  | .addGroupMessage payload _ => some payload.content
  | _ => none

namespace Database

variable {db db' : Database} {update : Update} {result : update.Result}

/-- Where the users and messages of the tables come from. -/
structure RowsOf (db : Database) (update : Update) (db' : Database) : Prop where
  users : ∀ row ∈ db'.users, row ∈ db.users ∨ update = .createUser row.1 row.2
  messages : ∀ message ∈ db'.messages, message ∈ db.messages ∨
    update = .addMessage message.payload ∨ update = .addPrivateMessageWithDelivery message.payload
  groupMessages : ∀ message ∈ db'.groupMessages, message ∈ db.groupMessages ∨
    ∃ recipients, update = .addGroupMessage message.payload recipients

theorem RowsOf.of_eq (husers : db'.users = db.users) (hmessages : db'.messages = db.messages)
    (hgroupMessages : db'.groupMessages = db.groupMessages) : RowsOf db update db' := by
  constructor
  · exact fun row hrow => .inl (husers ▸ hrow)
  · exact fun message hmessage => .inl (hmessages ▸ hmessage)
  · exact fun message hmessage => .inl (hgroupMessages ▸ hmessage)

theorem apply_rows (happly : db.apply update = .ok (result, db')) : RowsOf db update db' := by
  cases update with
  | createUser username passwordHash =>
    simp only [apply, createUser] at happly
    split at happly <;> cases happly
    refine ⟨fun row hrow => ?_, fun _ h => .inl h, fun _ h => .inl h⟩
    rcases List.mem_append.mp hrow with hold | hnew
    · exact .inl hold
    · rw [List.mem_singleton.mp hnew]
      exact .inr rfl
  | deleteUser username =>
    simp only [apply, deleteUser] at happly
    split at happly <;> cases happly
    · exact .of_eq rfl rfl rfl
    · refine ⟨fun row hrow => ?_, fun message hmessage => ?_, fun message hmessage => ?_⟩
      · exact .inl (List.mem_filter.mp hrow).1
      · exact .inl (List.mem_filter.mp hmessage).1
      · exact .inl (List.mem_filter.mp (List.mem_filter.mp hmessage).1).1
  | dissolveGroup =>
    cases happly
    exact ⟨fun _ h => .inl h, fun _ h => .inl h, fun _ h => .inl (List.mem_filter.mp h).1⟩
  | addMessage payload =>
    simp only [apply, addMessage] at happly
    split at happly <;> cases happly
    refine ⟨fun _ h => .inl h, fun message hmessage => ?_, fun _ h => .inl h⟩
    rcases List.mem_append.mp hmessage with hold | hnew
    · exact .inl hold
    · rw [List.mem_singleton.mp hnew]
      exact .inr (.inl rfl)
  | addPrivateMessageWithDelivery payload =>
    simp only [apply, addPrivateMessageWithDelivery] at happly
    split at happly
    · cases happly
    · split at happly <;> cases happly
      refine ⟨fun _ h => .inl h, fun message hmessage => ?_, fun _ h => .inl h⟩
      rcases List.mem_append.mp hmessage with hold | hnew
      · exact .inl hold
      · rw [List.mem_singleton.mp hnew]
        exact .inr (.inr rfl)
  | addGroupMessage payload recipients =>
    simp only [apply, addGroupMessage] at happly
    split at happly <;> cases happly
    refine ⟨fun _ h => .inl h, fun _ h => .inl h, fun message hmessage => ?_⟩
    rcases List.mem_append.mp hmessage with hold | hnew
    · exact .inl hold
    · rw [List.mem_singleton.mp hnew]
      exact .inr ⟨recipients, rfl⟩
  | _ =>
    have hframed := apply_framed happly
    exact .of_eq (hframed.users rfl) (hframed.messages rfl).1 (hframed.messages rfl).2

structure ContentsAre (P : Bytes → Prop) (db : Database) : Prop where
  users : ∀ row ∈ db.users, isValidUsername row.1 = true
  messages : ∀ message ∈ db.messages, P message.payload.content ∧
    isValidUsername message.payload.senderUsername = true ∧
      (message.payload.recipientUsername = [] ∨
        isValidUsername message.payload.recipientUsername = true)
  groupMessages : ∀ message ∈ db.groupMessages, P message.payload.content ∧
    isValidUsername message.payload.senderUsername = true ∧
      isValidGroupName message.payload.groupName = true

theorem ContentsAre.valid_of_userExists {P : Bytes → Prop} (hcontents : db.ContentsAre P)
    {username : Bytes} (hexists : db.userExists username = true) :
    isValidUsername username = true := by
  obtain ⟨row, hrow, hname⟩ := List.any_eq_true.mp hexists
  rw [decide_eq_true_eq] at hname
  exact hname ▸ hcontents.users row hrow

end Database

def Fact.ContentIs (P : Bytes → Prop) : Fact → Prop
  | .userExists username => isValidUsername username = true
  | .message stored => P stored.payload.content
  | .groupMessage stored => P stored.payload.content
  | _ => True

theorem Fact.contentIs_of_found {P : Bytes → Prop} {db : Database} (hcontents : db.ContentsAre P)
    {fact : Fact} (hholds : fact.Holds db) (hfound : fact.Found db) : fact.ContentIs P := by
  cases fact with
  | userExists username => exact hcontents.valid_of_userExists hholds
  | message stored => exact (hcontents.messages stored hfound).1
  | groupMessage stored => exact (hcontents.groupMessages stored hfound).1
  | _ => trivial

structure View.ContentsAre (P : Bytes → Prop) (v : View) : Prop where
  tables : v.db.ContentsAre P
  users : ∀ conn, (v.core conn).loggedIn = true → isValidUsername (v.core conn).username = true

def contentLayer (P : Bytes → Prop) : Layer where
  inv := fun s => s.view.ContentsAre P
  rely := fun _ _ _ => True
  cond := fun _ action _ _ => ∀ update content, action = .update update →
    update.content = some content → P content
  shown := fun _ action _ _ _ => ∀ target text completion, action = .send target text completion →
    ∀ content ∈ text.contents, newline ∉ content ∨ P content
  tracks := fun _ st _ => ∀ fact ∈ st.known, fact.ContentIs P

section Step

variable {P : Bytes → Prop} {conn : ConnId} {choice : Choice} {st st' : Progress} {v v' : View}
  {action : Act}

theorem Database.ContentsAre.apply {db db' : Database} {update : Update} {result : update.Result}
    (hcontents : db.ContentsAre P) (hmay : st.MayUpdate update)
    (hcond : ∀ content, update.content = some content → P content)
    (huser : st.core.loggedIn = true → isValidUsername st.core.username = true)
    (happly : db.apply update = .ok (result, db')) : db'.ContentsAre P := by
  have hrows := apply_rows happly
  have hsends : ∀ {sender}, st.Sends sender → isValidUsername sender = true := by
    rintro sender ⟨hloggedIn, rfl⟩
    exact huser hloggedIn
  constructor
  · intro row hrow
    rcases hrows.users row hrow with hold | rfl
    · exact hcontents.users row hold
    · exact hmay.2.2
  · intro message hmessage
    rcases hrows.messages message hmessage with hold | rfl | rfl
    · exact hcontents.messages message hold
    · exact ⟨hcond _ rfl, hsends hmay.2.2.1, .inl hmay.2.2.2⟩
    · exact ⟨hcond _ rfl, hsends hmay.2.2.2.1, .inr hmay.2.2.2.2⟩
  · intro message hmessage
    rcases hrows.groupMessages message hmessage with hold | ⟨recipients, rfl⟩
    · exact hcontents.groupMessages message hold
    · exact ⟨hcond _ rfl, hsends hmay.2.2.1, hmay.2.2.2⟩

theorem Effect.contentsAre (heffect : Effect conn choice st v action st' v')
    (hcontents : v.ContentsAre P) (htracks : Tracks conn st v)
    (hcond : ∀ update content, action = .update update → update.content = some content → P content)
    (hknown : ∀ fact ∈ st.known, fact.ContentIs P) : v'.ContentsAre P := by
  have huser : st.core.loggedIn = true → isValidUsername st.core.username = true := by
    intro hloggedIn
    rw [← htracks.core] at hloggedIn ⊢
    exact hcontents.users conn hloggedIn
  cases heffect with
  | committed hmay happly =>
    exact ⟨hcontents.tables.apply hmay (hcond _ · rfl) huser happly, hcontents.users⟩
  | late hmay hchoice happly =>
    exact ⟨hcontents.tables.apply hmay (hcond _ · rfl) huser happly, hcontents.users⟩
  | @assigned a hmay =>
    refine ⟨hcontents.tables, fun other => ?_⟩
    by_cases heq : other = conn
    · subst heq
      rw [View.assign_core_self, htracks.core]
      cases a with
      | login username => exact fun _ => hknown _ hmay.2.2.1
      | logout | accountDeleted => exact fun hloggedIn => nomatch hloggedIn
      | _ => exact huser
    · rw [View.assign_core_of_ne v heq]
      exact hcontents.users other
  | _ => exact ⟨hcontents.tables, hcontents.users⟩

theorem Effect.contentIs (heffect : Effect conn choice st v action st' v')
    (hcontents : v'.ContentsAre P) (hknown : ∀ fact ∈ st.known, fact.ContentIs P) :
    ∀ fact ∈ st'.known, fact.ContentIs P := by
  intro fact hfact
  rcases heffect.known_cases hfact with ⟨hold, -⟩ | ⟨hholds, hfound⟩
  · exact hknown fact hold
  · exact Fact.contentIs_of_found hcontents.tables hholds hfound

theorem Progress.HasRead.contentIs {content : Bytes} (hread : st.HasRead content)
    (hknown : ∀ fact ∈ st.known, fact.ContentIs P) : P content := by
  rcases hread with ⟨message, hmem, rfl⟩ | ⟨message, hmem, rfl⟩
  · exact hknown _ hmem
  · exact hknown _ hmem

end Step

theorem contentLayer_sound (P : Bytes → Prop) (crypto : Crypto) : (contentLayer P).Sound crypto where
  stable := fun _ _ _ hknown => hknown
  step := by
    intro conn st action choice result s s' hallowed hbase hinv htracks hknown hcond hexec
    have heffect := Effect.of_exec hallowed hexec
    have hafter := heffect.contentsAre hinv htracks hcond hknown
    refine ⟨hafter, fun _ _ => trivial, ?_, heffect.contentIs hafter hknown⟩
    rintro target text completion rfl content hcontent
    exact (hallowed.1 content hcontent).imp_right fun hread => hread.contentIs hknown
  start := by
    intro conn task s s' hidle hinv hstarted
    refine ⟨?_, fun _ _ => trivial, fun fact hfact => absurd hfact List.not_mem_nil⟩
    show s'.view.ContentsAre P
    rw [hstarted.view]
    exact ⟨hinv.tables, hinv.users⟩
  finish := by
    intro conn st choice s hfree hinv htracks hknown
    exact ⟨⟨hinv.tables, hinv.users⟩, fun _ _ => trivial, fun _ _ _ haction => nomatch haction⟩

end ChatRoom
