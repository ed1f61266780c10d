import ChatRoom.Proof.Uploads

/-! # Who receives the frames of a file -/

namespace ChatRoom

open Interleaving Database

variable {id : Nat} {other : ConnId} {transfer : StoredFileTransfer}

def Database.IsRecipient (db : Database) (transferId : Nat) (username : Bytes) : Prop :=
  ∃ row ∈ db.fileDeliveries, row.item = transferId ∧ row.recipientUsername = username

instance (db : Database) (transferId : Nat) (username : Bytes) :
    Decidable (db.IsRecipient transferId username) :=
  inferInstanceAs (Decidable (∃ row ∈ db.fileDeliveries,
    row.item = transferId ∧ row.recipientUsername = username))

namespace Shared

def Receives (s : Shared) (conn : ConnId) (transferId : Nat) : Prop :=
  (s.sessions conn).loggedIn = true ∧ s.db.IsRecipient transferId (s.sessions conn).username

instance (s : Shared) (conn : ConnId) (transferId : Nat) :
    Decidable (s.Receives conn transferId) :=
  inferInstanceAs (Decidable (_ ∧ _))

def OffersRight (s : Shared) (conn : ConnId) : Prop :=
  ∀ offer ∈ (s.sessions conn).offeredFiles, s.Receives conn offer.id

def NoDelivery (s : Shared) (conn : ConnId) : Prop :=
  ∀ pump ∈ s.pumps, pump.stage ≠ .ended → pump.connection ≠ conn

instance (s : Shared) (conn : ConnId) : Decidable (s.NoDelivery conn) :=
  inferInstanceAs (Decidable (∀ pump ∈ s.pumps, pump.stage ≠ .ended → pump.connection ≠ conn))

/-- A recipient that a change of the tables takes away is logged in on no other connection, waits
for no queued offer, and is not a recipient of a file that another connection is finishing. -/
def RecipientsSpared (s : Shared) (conn : ConnId) (db : Database) : Prop :=
  ∀ transferId username, s.db.IsRecipient transferId username → ¬db.IsRecipient transferId username →
    (∀ other, other ≠ conn → (s.sessions other).loggedIn = true →
      (s.sessions other).username ≠ username) ∧
    (∀ target transfer, (target, LoopCall.deliverFileToUser transfer username) ∈ s.loopCalls →
      transfer.id ≠ transferId) ∧
    ∀ other task, other ≠ conn → s.running other = some task → task.endedUpload = none

end Shared

/-- The user of a session leaves it only without offers and deliveries. -/
def DeliveryCond (s : Shared) (conn : ConnId) (choice : Choice) : Act → Prop
  | .assign .logout => (s.sessions conn).offeredFiles = [] ∧ s.NoDelivery conn
  | .update (.deleteUser username) =>
    (∀ error, choice ≠ .failLate error) ∧
      ∀ db, s.db.apply (.deleteUser username) = .ok (true, db) →
        s.NoDelivery conn ∧ s.RecipientsSpared conn db
  | _ => True

/-- **Deliveries.** Whatever is on offer or on its way goes to one of its recipients. -/
structure DeliveriesRight (s : Shared) : Prop where
  offers : ∀ conn, (∀ task, s.running conn = some task → task.deletesAccount = false) →
    s.OffersRight conn
  pumps : ∀ pump ∈ s.pumps, pump.stage ≠ .ended → s.Receives pump.connection pump.transfer.id
  calls : ∀ target transfer recipient,
    (target, LoopCall.deliverFileToUser transfer recipient) ∈ s.loopCalls →
    s.db.IsRecipient transfer.id recipient

def Progress.Trusts (st : Progress) (fact : Fact) : Prop :=
  ∃ transferId username, fact = .recorded transferId username ∧
    (st.task.endedUpload.isSome = true ∨ st.core.loggedIn = true ∧ username = st.core.username)

structure DeliveryTracks (conn : ConnId) (st : Progress) (s : Shared) : Prop where
  offers : st.deleted = false → s.OffersRight conn
  offered : st.deleted = false → ∀ id ∈ st.offered, s.Receives conn id
  known : ∀ fact ∈ st.known, st.Trusts fact → fact.Holds s.db
  call : ∀ transfer, st.task.call = some (.deliverFileToUser transfer st.core.username) →
    st.core.loggedIn = true → s.db.IsRecipient transfer.id st.core.username
  deletes : st.deleted = true → st.task.deletesAccount = true
  quiet : st.deleted = true → s.NoDelivery conn

structure DeliveryRely (conn : ConnId) (s s' : Shared) : Prop where
  offers : ∀ offer ∈ (s'.sessions conn).offeredFiles, offer ∈ (s.sessions conn).offeredFiles
  receives : ∀ id, s.Receives conn id → s'.Receives conn id
  ended : ∀ task, s.running conn = some task → task.endedUpload.isSome = true →
    ∀ transferId username, s.db.IsRecipient transferId username →
      s'.db.IsRecipient transferId username
  quiet : s.NoDelivery conn → s'.NoDelivery conn

def deliveryLayer : Layer where
  inv := DeliveriesRight
  rely := DeliveryRely
  cond := fun conn action choice s => DeliveryCond s conn choice action
  shown := fun _ _ _ _ _ => True
  tracks := DeliveryTracks

def Progress.Receives (st : Progress) (db : Database) (transferId : Nat) : Prop :=
  st.core.loggedIn = true ∧ db.IsRecipient transferId st.core.username

theorem Tracks.receives_iff {conn : ConnId} {st : Progress} {s : Shared}
    (htracks : Tracks conn st s.view) :
    s.Receives conn id ↔ st.Receives s.db id := by
  rw [Progress.Receives, ← htracks.core]
  exact Iff.rfl

theorem Progress.user_afterAssign (st : Progress) {a : Assign} (hrenames : a.renames = false) :
    (st.afterAssign a).core.loggedIn = st.core.loggedIn ∧
      (st.afterAssign a).core.username = st.core.username := by
  cases a with
  | login | logout | accountDeleted => cases hrenames
  | _ => exact ⟨rfl, rfl⟩

/-! ### One step -/

section Step

variable {crypto : Crypto} {conn : ConnId} {action : Act} {choice : Choice} {st : Progress}
  {s s' : Shared} {result : action.Result}

/-- The step that deletes the account of a connection. -/
structure DeletesAccount (conn : ConnId) (st : Progress) (s s' : Shared) : Prop where
  task : st.task.deletesAccount = true
  call : st.task.call = none
  rest : s'.rest = s.rest
  quiet : s.NoDelivery conn
  spared : s.RecipientsSpared conn s'.db

theorem deletesAccount_of_apply {username : Bytes} (hallowed : st.Allowed action)
    (hcond : DeliveryCond s conn choice action)
    (hexec : exec crypto conn action choice s = some (result, s'))
    (haction : action = .update (.deleteUser username))
    (happly : s.db.apply (.deleteUser username) = .ok (true, s'.db)) :
    DeletesAccount conn st s s' := by
  subst haction
  obtain ⟨hquiet, hspared⟩ := hcond.2 s'.db happly
  exact ⟨hallowed.1.2.2.1, hallowed.1.2.2.2, (execFrame_of_exec hexec).rest rfl, hquiet, hspared⟩

theorem Effect.deleted_cases {st' : Progress} {v v' : View}
    (heffect : Effect conn choice st v action st' v') (hdeleted : st'.deleted = true) :
    st.deleted = true ∨ ∃ username, action = .update (.deleteUser username) ∧
      v.db.apply (.deleteUser username) = .ok (true, v'.db) := by
  cases heffect with
  | @committed update result db hmay happly =>
    rw [Progress.commit_deleted, Bool.or_eq_true] at hdeleted
    refine hdeleted.imp_right fun hdeletes => ?_
    cases update with
    | deleteUser username =>
      have hremoved : result = true := hdeletes
      subst hremoved
      exact ⟨username, rfl, happly⟩
    | _ => cases hdeletes
  | late | refused => exact .inl (Progress.forget_deleted ▸ hdeleted)
  | @assigned a hmay =>
    cases a with
    | accountDeleted => cases hdeleted
    | _ => exact .inl hdeleted
  | _ => exact .inl hdeleted

theorem deleteUser_missing {db db' : Database} {username : Bytes}
    (happly : db.apply (.deleteUser username) = .ok (false, db')) : db' = db := by
  simp only [apply, deleteUser] at happly
  split at happly <;> cases happly
  rfl

theorem delivery_step_cases (hallowed : st.Allowed action) (hcond : DeliveryCond s conn choice action)
    (hexec : exec crypto conn action choice s = some (result, s')) :
    (DeletesAccount conn st s s' ∧ (st.after action result).deleted = true) ∨
      ((∀ transferId username, s.db.IsRecipient transferId username →
          s'.db.IsRecipient transferId username) ∧
        ((st.after action result).deleted = true → st.deleted = true)) := by
  have heffect := Effect.of_exec hallowed hexec
  by_cases hnew : ∃ username, action = .update (.deleteUser username) ∧
      s.db.apply (.deleteUser username) = .ok (true, s'.db) ∧
      (st.after action result).deleted = true
  · obtain ⟨username, haction, happly, hdeleted⟩ := hnew
    exact .inl ⟨deletesAccount_of_apply hallowed hcond hexec haction happly, hdeleted⟩
  right
  constructor
  · intro transferId username hrecipient
    rcases heffect.db_cases with hdb | ⟨update, value, rfl, happly, hreported⟩
    · rw [show s'.db = s.db from hdb]
      exact hrecipient
    by_cases hdelete : ∃ username, update = .deleteUser username
    · obtain ⟨username, rfl⟩ := hdelete
      rcases hreported with hcommit | ⟨error, hchoice⟩
      · cases value with
        | true =>
          refine absurd ⟨username, rfl, happly, ?_⟩ hnew
          rw [hcommit, Progress.commit_deleted]
          exact Bool.or_true _
        | false =>
          rw [show s'.db = s.db from deleteUser_missing happly]
          exact hrecipient
      · exact absurd hchoice (hcond.1 error)
    · exact recorded_apply (fun username heq => hdelete ⟨username, heq⟩) happly hrecipient
  · intro hdeleted
    refine (heffect.deleted_cases hdeleted).resolve_right ?_
    rintro ⟨username, haction, happly⟩
    exact hnew ⟨username, haction, happly, hdeleted⟩

theorem receives_other (hallowed : st.Allowed action) (hcond : DeliveryCond s conn choice action)
    (hexec : exec crypto conn action choice s = some (result, s')) (hne : other ≠ conn)
    (hreceives : s.Receives other id) : s'.Receives other id := by
  obtain ⟨hloggedIn, hrecipient⟩ := hreceives
  have hcore := ((Effect.of_exec hallowed hexec).untouched hne).core
  have husername := congrArg ClientSession.username hcore
  refine ⟨(congrArg ClientSession.loggedIn hcore).trans hloggedIn, ?_⟩
  rw [show (s'.sessions other).username = (s.sessions other).username from husername]
  rcases delivery_step_cases hallowed hcond hexec with ⟨hdeletes, -⟩ | ⟨hkeeps, -⟩
  · by_contra hgone
    exact (hdeletes.spared _ _ hrecipient hgone).1 other hne hloggedIn rfl
  · exact hkeeps _ _ hrecipient

theorem Progress.user_after (st : Progress) (result : action.Result)
    (hrenames : ∀ a, action = .assign a → a.renames = false) :
    (st.after action result).core.loggedIn = st.core.loggedIn ∧
      (st.after action result).core.username = st.core.username := by
  by_cases hassign : ∃ a, action = .assign a
  · obtain ⟨a, rfl⟩ := hassign
    exact st.user_afterAssign (hrenames a rfl)
  · rw [(st.kept_after action result).core fun a heq => hassign ⟨a, heq⟩]
    exact ⟨rfl, rfl⟩

theorem receives_self (htracks : Tracks conn st s.view)
    (htracks' : Tracks conn (st.after action result) s'.view)
    (hrenames : ∀ a, action = .assign a → a.renames = false)
    (hkeeps : ∀ transferId username, s.db.IsRecipient transferId username →
      s'.db.IsRecipient transferId username)
    (hreceives : s.Receives conn id) :
    s'.Receives conn id := by
  obtain ⟨hloggedIn, husername⟩ := st.user_after result hrenames
  rw [htracks.receives_iff] at hreceives
  rw [htracks'.receives_iff, Progress.Receives, hloggedIn, husername]
  exact ⟨hreceives.1, hkeeps _ _ hreceives.2⟩

theorem noDelivery_step (hallowed : st.Allowed action)
    (hexec : exec crypto conn action choice s = some (result, s')) (hquiet : s.NoDelivery other)
    (hstarts : other = conn → st.deleted = true) :
    s'.NoDelivery other := by
  intro pump hpump hlive
  rcases (Change.of_exec hexec).pumps hpump hlive with
    ⟨earlier, hearlier, hwas, hconnection, -⟩ | ⟨startOffset, rfl, hconnection⟩
  · rw [← hconnection]
    exact hquiet earlier hearlier hwas
  · -- the discipline allows no new delivery after the deletion of the account
    rintro rfl
    have hdeleted := hstarts hconnection
    rw [hallowed.2.1] at hdeleted
    cases hdeleted

theorem Progress.deleted_of_after (hreset : action ≠ .assign .accountDeleted)
    (hdeleted : (st.after action result).deleted = false) : st.deleted = false := by
  cases action with
  | assign a =>
    cases a with
    | accountDeleted => exact absurd rfl hreset
    | _ => exact hdeleted
  | update u =>
    cases result with
    | error error => exact forget_deleted ▸ hdeleted
    | ok value =>
      have hboth : (st.deleted || u.deletesUser value) = false := hdeleted
      rw [Bool.or_eq_false_iff] at hboth
      exact hboth.1
  | _ =>
    rw [(st.kept_after _ result).deleted nofun nofun] at hdeleted
    exact hdeleted

namespace DeliveryTracks

section

variable (hdelivery : DeliveryTracks conn st s)
include hdelivery

theorem receives_offer (hmay : st.MayAssign (.offer transfer)) : st.Receives s.db transfer.id := by
  obtain ⟨hloggedIn, hknown | hcall⟩ := hmay
  · exact ⟨hloggedIn, hdelivery.known _ hknown ⟨_, _, rfl, .inr ⟨hloggedIn, rfl⟩⟩⟩
  · exact ⟨hloggedIn, hdelivery.call transfer hcall hloggedIn⟩

theorem receives_assign {a : Assign} (htracks : Tracks conn st s.view) (hmay : st.MayAssign a)
    (hcond : DeliveryCond s conn choice (.assign a)) (hdeleted : (st.afterAssign a).deleted = false)
    {offer : StoredFileTransfer} (hoffer : offer ∈ ((s.sessions conn).assign a).offeredFiles) :
    (st.afterAssign a).Receives s.db offer.id := by
  have hold : st.deleted = false → offer ∈ (s.sessions conn).offeredFiles →
      st.Receives s.db offer.id := fun hdeleted hoffer =>
    htracks.receives_iff.mp (hdelivery.offers hdeleted offer hoffer)
  cases a with
  | login username =>
    have hloggedIn := (hold hdeleted hoffer).1
    rw [hmay.1] at hloggedIn
    cases hloggedIn
  | logout =>
    have hnone : offer ∈ (s.sessions conn).offeredFiles := hoffer
    rw [hcond.1] at hnone
    exact absurd hnone List.not_mem_nil
  | accountDeleted => exact absurd hoffer List.not_mem_nil
  | offer transfer =>
    rcases List.mem_append.mp hoffer with hearlier | hnew
    · exact hold hdeleted (List.mem_filter.mp hearlier).1
    · rw [List.mem_singleton.mp hnew]
      exact hdelivery.receives_offer hmay
  | eraseOffer transferId => exact hold hdeleted (List.mem_filter.mp hoffer).1
  | _ => exact hold hdeleted hoffer

theorem offers_step (hallowed : st.Allowed action) (htracks : Tracks conn st s.view)
    (htracks' : Tracks conn (st.after action result) s'.view)
    (hcond : DeliveryCond s conn choice action)
    (hexec : exec crypto conn action choice s = some (result, s'))
    (hdeleted : (st.after action result).deleted = false) : s'.OffersRight conn := by
  intro offer hoffer
  by_cases hassign : ∃ a, action = .assign a
  · obtain ⟨a, rfl⟩ := hassign
    cases choice <;> cases hexec
    rw [htracks'.receives_iff]
    refine hdelivery.receives_assign htracks hallowed hcond hdeleted ?_
    simpa [Shared.setSession] using hoffer
  · have hnever : ∀ a, action ≠ .assign a := fun a heq => hassign ⟨a, heq⟩
    rcases delivery_step_cases hallowed hcond hexec with ⟨-, hdeleted'⟩ | ⟨hkeeps, -⟩
    · rw [hdeleted] at hdeleted'
      cases hdeleted'
    · refine receives_self htracks htracks' (fun a heq => absurd heq (hnever a)) hkeeps ?_
      exact hdelivery.offers (Progress.deleted_of_after (hnever _) hdeleted) offer
        ((Change.of_exec hexec).offeredFiles hnever conn hoffer)

theorem offered_step (hallowed : st.Allowed action) (htracks : Tracks conn st s.view)
    (htracks' : Tracks conn (st.after action result) s'.view)
    (hcond : DeliveryCond s conn choice action)
    (hexec : exec crypto conn action choice s = some (result, s'))
    (hdeleted : (st.after action result).deleted = false)
    (hid : id ∈ (st.after action result).offered) : s'.Receives conn id := by
  rcases delivery_step_cases hallowed hcond hexec with ⟨-, hdeleted'⟩ | ⟨hkeeps, -⟩
  · rw [hdeleted] at hdeleted'
    cases hdeleted'
  by_cases hassign : ∃ a, action = .assign a
  · obtain ⟨a, rfl⟩ := hassign
    have hid' : id ∈ if a.renames then [] else st.offered := hid
    cases hrenames : a.renames with
    | true =>
      rw [hrenames, if_pos rfl] at hid'
      exact absurd hid' List.not_mem_nil
    | false =>
      rw [hrenames, if_neg Bool.false_ne_true] at hid'
      have hbefore : st.deleted = false := by
        refine Progress.deleted_of_after ?_ hdeleted
        rintro ⟨rfl⟩
        cases hrenames
      refine receives_self htracks htracks' ?_ hkeeps (hdelivery.offered hbefore id hid')
      rintro _ ⟨rfl⟩
      exact hrenames
  · have hnever : ∀ a, action ≠ .assign a := fun a heq => hassign ⟨a, heq⟩
    have hbefore := Progress.deleted_of_after (hnever _) hdeleted
    refine receives_self htracks htracks' (fun a heq => absurd heq (hnever a)) hkeeps ?_
    by_cases hsession : action = .session
    · subst hsession
      cases choice <;> cases hexec
      rcases List.mem_append.mp hid with hnew | hold
      · obtain ⟨offer, hoffer, rfl⟩ := List.mem_map.mp hnew
        exact hdelivery.offers hbefore offer hoffer
      · exact hdelivery.offered hbefore id hold
    · exact hdelivery.offered hbefore id ((st.kept_after action result).offered hnever hsession id hid)

theorem known_step (hallowed : st.Allowed action)
    (hexec : exec crypto conn action choice s = some (result, s')) {fact : Fact}
    (hfact : fact ∈ (st.after action result).known) (htrusts : (st.after action result).Trusts fact) :
    fact.Holds s'.db := by
  refine (Effect.of_exec hallowed hexec).known_holds hdelivery.known fact hfact ?_
  have hrenames : ∀ a, action = .assign a → a.renames = false := by
    rintro a rfl
    have hfact' : fact ∈ if a.renames then [] else st.known := hfact
    by_contra hrenames
    rw [if_pos (Bool.eq_true_of_not_eq_false hrenames)] at hfact'
    exact absurd hfact' List.not_mem_nil
  obtain ⟨hloggedIn, husername⟩ := st.user_after result hrenames
  unfold Progress.Trusts at htrusts
  rwa [hloggedIn, husername, (st.kept_after action result).task] at htrusts

theorem call_step (hallowed : st.Allowed action) (hcond : DeliveryCond s conn choice action)
    (hexec : exec crypto conn action choice s = some (result, s'))
    (hcall : (st.after action result).task.call =
      some (.deliverFileToUser transfer (st.after action result).core.username))
    (hlogged : (st.after action result).core.loggedIn = true) :
    s'.db.IsRecipient transfer.id (st.after action result).core.username := by
  rw [(st.kept_after action result).task] at hcall
  have hrenames : ∀ a, action = .assign a → a.renames = false := by
    rintro a rfl
    -- queued work never changes the user of a session
    have hsome : st.task.call ≠ none := by rw [hcall]; nofun
    cases a with
    | login username => exact absurd hallowed.2.1 hsome
    | logout => exact absurd hallowed.2.1 hsome
    | accountDeleted => exact absurd hallowed.2.2.2.1 hsome
    | _ => rfl
  obtain ⟨hloggedIn, husername⟩ := st.user_after result hrenames
  rw [husername] at hcall ⊢
  rw [hloggedIn] at hlogged
  rcases delivery_step_cases hallowed hcond hexec with ⟨hdeletes, -⟩ | ⟨hkeeps, -⟩
  · rw [hdeletes.call] at hcall
    cases hcall
  · exact hkeeps _ _ (hdelivery.call transfer hcall hlogged)

theorem step (hallowed : st.Allowed action) (htracks : Tracks conn st s.view)
    (htracks' : Tracks conn (st.after action result) s'.view)
    (hcond : DeliveryCond s conn choice action)
    (hexec : exec crypto conn action choice s = some (result, s')) :
    DeliveryTracks conn (st.after action result) s' where
  offers := hdelivery.offers_step hallowed htracks htracks' hcond hexec
  offered := fun hdeleted id => hdelivery.offered_step hallowed htracks htracks' hcond hexec hdeleted
  known := fun fact => hdelivery.known_step hallowed hexec
  call := fun transfer => hdelivery.call_step hallowed hcond hexec
  deletes := by
    intro hdeleted
    rw [(st.kept_after action result).task]
    rcases delivery_step_cases hallowed hcond hexec with ⟨hdeletes, -⟩ | ⟨-, hbefore⟩
    · exact hdeletes.task
    · exact hdelivery.deletes (hbefore hdeleted)
  quiet := by
    intro hdeleted
    rcases delivery_step_cases hallowed hcond hexec with ⟨hdeletes, -⟩ | ⟨-, hbefore⟩
    · unfold Shared.NoDelivery
      rw [show s'.pumps = s.pumps from congrArg Rest.pumps hdeletes.rest]
      exact hdeletes.quiet
    · exact noDelivery_step hallowed hexec (hdelivery.quiet (hbefore hdeleted))
        fun _ => hbefore hdeleted

theorem stable (huntouched : Untouched conn s.view s'.view) (htracks : Tracks conn st s.view)
    (hrely : DeliveryRely conn s s') :
    DeliveryTracks conn st s' where
  offers := fun hdeleted offer hoffer =>
    hrely.receives _ (hdelivery.offers hdeleted offer (hrely.offers offer hoffer))
  offered := fun hdeleted id hid => hrely.receives id (hdelivery.offered hdeleted id hid)
  known := by
    rintro fact hfact ⟨transferId, username, rfl, htrusted⟩
    have hholds := hdelivery.known _ hfact ⟨transferId, username, rfl, htrusted⟩
    rcases htrusted with hended | ⟨hloggedIn, rfl⟩
    · exact hrely.ended st.task htracks.running hended _ _ hholds
    · have hreceives := hrely.receives transferId (htracks.receives_iff.mpr ⟨hloggedIn, hholds⟩)
      exact ((htracks.untouched huntouched).receives_iff.mp hreceives).2
  call := by
    intro transfer hcall hloggedIn
    have hholds := hdelivery.call transfer hcall hloggedIn
    have hreceives := hrely.receives transfer.id (htracks.receives_iff.mpr ⟨hloggedIn, hholds⟩)
    exact ((htracks.untouched huntouched).receives_iff.mp hreceives).2
  deletes := hdelivery.deletes
  quiet := fun hdeleted => hrely.quiet (hdelivery.quiet hdeleted)

end

end DeliveryTracks

/-! ### The layer -/

theorem deliveryRely_step (hallowed : st.Allowed action) (hcond : DeliveryCond s conn choice action)
    (hexec : exec crypto conn action choice s = some (result, s')) (hne : other ≠ conn) :
    DeliveryRely other s s' where
  offers := by
    intro offer hoffer
    by_cases hassign : ∃ a, action = .assign a
    · obtain ⟨a, rfl⟩ := hassign
      cases choice <;> cases hexec
      simpa [Shared.setSession, Function.update_of_ne hne] using hoffer
    · exact (Change.of_exec hexec).offeredFiles (fun a heq => hassign ⟨a, heq⟩) other hoffer
  receives := fun id => receives_other hallowed hcond hexec hne
  ended := by
    intro task hrunning hended transferId username hrecipient
    rcases delivery_step_cases hallowed hcond hexec with ⟨hdeletes, -⟩ | ⟨hkeeps, -⟩
    · by_contra hgone
      have hnone := (hdeletes.spared _ _ hrecipient hgone).2.2 other task hne hrunning
      rw [hnone] at hended
      cases hended
    · exact hkeeps _ _ hrecipient
  quiet := fun hquiet => noDelivery_step hallowed hexec hquiet fun heq => absurd heq hne

theorem pumps_step (hinv : DeliveriesRight s) (hallowed : st.Allowed action)
    (htracks : Tracks conn st s.view) (htracks' : Tracks conn (st.after action result) s'.view)
    (hdelivery : DeliveryTracks conn st s) (hcond : DeliveryCond s conn choice action)
    (hexec : exec crypto conn action choice s = some (result, s')) {pump : Pump}
    (hpump : pump ∈ s'.pumps) (hlive : pump.stage ≠ .ended) :
    s'.Receives pump.connection pump.transfer.id := by
  have hself : ∀ {id}, s.Receives conn id → ¬s.NoDelivery conn → s'.Receives conn id := by
    intro id hreceives hruns
    rcases delivery_step_cases hallowed hcond hexec with ⟨hdeletes, -⟩ | ⟨hkeeps, -⟩
    · exact absurd hdeletes.quiet hruns
    refine receives_self htracks htracks' ?_ hkeeps hreceives
    rintro a rfl
    -- the user does not change while a delivery runs on the connection
    cases a with
    | login username =>
      have hloggedIn := (htracks.receives_iff.mp hreceives).1
      rw [hallowed.1] at hloggedIn
      cases hloggedIn
    | logout => exact absurd hcond.2 hruns
    | accountDeleted => exact absurd (hdelivery.quiet hallowed.2.2.2.2.1) hruns
    | _ => rfl
  rcases (Change.of_exec hexec).pumps hpump hlive with
    ⟨earlier, hearlier, hwas, hconnection, htransfer⟩ | ⟨startOffset, rfl, hconnection⟩
  · have hreceives := hinv.pumps earlier hearlier hwas
    rw [← hconnection, ← htransfer]
    by_cases heq : earlier.connection = conn
    · rw [heq] at hreceives ⊢
      exact hself hreceives fun hquiet => hquiet earlier hearlier hwas heq
    · exact receives_other hallowed hcond hexec heq hreceives
  · rw [hconnection]
    have hreceives := hdelivery.offered hallowed.2.1 _ hallowed.1
    rcases delivery_step_cases hallowed hcond hexec with ⟨hdeletes, -⟩ | ⟨hkeeps, -⟩
    · have hpumps := congrArg Rest.pumps hdeletes.rest
      cases choice <;> cases hexec
      simp [Shared.rest, Shared.deliverAsync] at hpumps
    · exact receives_self htracks htracks' nofun hkeeps hreceives

theorem calls_step (hinv : DeliveriesRight s) (hallowed : st.Allowed action)
    (hdelivery : DeliveryTracks conn st s) (hcond : DeliveryCond s conn choice action)
    (hexec : exec crypto conn action choice s = some (result, s')) {target : ConnId}
    {recipient : Bytes}
    (hcall : (target, LoopCall.deliverFileToUser transfer recipient) ∈ s'.loopCalls) :
    s'.db.IsRecipient transfer.id recipient := by
  rcases delivery_step_cases hallowed hcond hexec with ⟨hdeletes, -⟩ | ⟨hkeeps, -⟩
  · rw [show s'.loopCalls = s.loopCalls from congrArg Rest.loopCalls hdeletes.rest] at hcall
    by_contra hgone
    have hrecipient := hinv.calls target transfer recipient hcall
    exact (hdeletes.spared _ _ hrecipient hgone).2.1 target transfer hcall rfl
  · apply hkeeps
    rcases (Change.of_exec hexec).loopCalls hcall with hold | rfl
    · exact hinv.calls target transfer recipient hold
    · exact hdelivery.known _ hallowed.1 ⟨_, _, rfl, .inl hallowed.2⟩

end Step

theorem deliveriesRight_step {crypto : Crypto} {conn : ConnId} {action : Act} {choice : Choice}
    {st : Progress} {s s' : Shared} {result : action.Result} (hinv : DeliveriesRight s)
    (hallowed : st.Allowed action) (htracks : Tracks conn st s.view)
    (htracks' : Tracks conn (st.after action result) s'.view)
    (hdelivery : DeliveryTracks conn st s) (hdelivery' : DeliveryTracks conn (st.after action result) s')
    (hcond : DeliveryCond s conn choice action)
    (hexec : exec crypto conn action choice s = some (result, s')) : DeliveriesRight s' where
  offers := by
    intro other htask
    by_cases heq : other = conn
    · subst heq
      apply hdelivery'.offers
      by_contra hdeleted
      have hdeletes := hdelivery'.deletes (Bool.eq_true_of_not_eq_false hdeleted)
      rw [htask _ htracks'.running] at hdeletes
      cases hdeletes
    · have hrely := deliveryRely_step hallowed hcond hexec heq
      have hrunning : s'.running other = s.running other :=
        ((Effect.of_exec hallowed hexec).untouched heq).running
      rw [hrunning] at htask
      intro offer hoffer
      exact hrely.receives _ (hinv.offers other htask offer (hrely.offers offer hoffer))
  pumps := fun pump => pumps_step hinv hallowed htracks htracks' hdelivery hcond hexec
  calls := fun target transfer recipient => calls_step hinv hallowed hdelivery hcond hexec

theorem deliveryRely_same {conn : ConnId} {s s' : Shared} (hsessions : s'.sessions = s.sessions)
    (hpumps : s'.pumps = s.pumps) (hdb : s'.db = s.db) : DeliveryRely conn s s' := by
  have hreceives : ∀ id, s'.Receives conn id ↔ s.Receives conn id := by
    intro id
    rw [Shared.Receives, Shared.Receives, hsessions, hdb]
  refine ⟨?_, fun id => (hreceives id).mpr, ?_, ?_⟩
  · rw [hsessions]
    exact fun offer hoffer => hoffer
  · rw [hdb]
    exact fun _ _ _ _ _ hrecipient => hrecipient
  · rw [Shared.NoDelivery, Shared.NoDelivery, hpumps]
    exact fun hquiet => hquiet

theorem deliveryLayer_sound (crypto : Crypto) : deliveryLayer.Sound crypto where
  stable := fun huntouched hrely htracks hdelivery => hdelivery.stable huntouched htracks hrely
  step := by
    intro conn st action choice result s s' hallowed hbase hinv htracks hdelivery hcond hexec
    have htracks' := (Effect.of_exec hallowed hexec).tracks hbase htracks
    have hdelivery' := hdelivery.step hallowed htracks htracks' hcond hexec
    exact ⟨deliveriesRight_step hinv hallowed htracks htracks' hdelivery hdelivery' hcond hexec,
      fun other hne => deliveryRely_step hallowed hcond hexec hne, trivial, hdelivery'⟩
  start := by
    rintro conn task s s' hidle hinv ⟨hsession, loopCalls, rfl, hcalls, htaken⟩
    have hoffers : s.OffersRight conn := by
      refine hinv.offers conn fun task hrunning => ?_
      rw [show s.running conn = none from hidle.running] at hrunning
      cases hrunning
    refine ⟨⟨?_, hinv.pumps, ?_⟩, fun other hne => deliveryRely_same rfl rfl rfl, ?_⟩
    · intro other htask
      by_cases heq : other = conn
      · rw [heq]
        exact hoffers
      · refine hinv.offers other fun task' hrunning => htask task' ?_
        show Function.update s.running conn (some task) other = some task'
        rw [Function.update_of_ne heq]
        exact hrunning
    · exact fun target transfer recipient hcall => hinv.calls target transfer recipient (hcalls _ hcall)
    · refine ⟨fun _ => hoffers, fun _ _ hid => absurd hid List.not_mem_nil,
        fun _ hfact => absurd hfact List.not_mem_nil, ?_, nofun, nofun⟩
      intro transfer hcall _
      exact hinv.calls conn transfer _ (htaken _ hcall)
  finish := by
    intro conn st choice s hfree hinv htracks hdelivery
    refine ⟨⟨?_, hinv.pumps, hinv.calls⟩, fun other hne => deliveryRely_same rfl rfl rfl, trivial⟩
    intro other htask
    by_cases heq : other = conn
    · rw [heq]
      exact hdelivery.offers hfree.deleted
    · refine hinv.offers other fun task hrunning => htask task ?_
      show Function.update s.running conn none other = some task
      rw [Function.update_of_ne heq]
      exact hrunning

end ChatRoom
