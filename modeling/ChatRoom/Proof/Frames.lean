import ChatRoom.Proof.Tracking

/-!
# Outside the view

The other fields of the sessions, the upload store, the running deliveries and the work queued in
the loops are changed by few actions. `Change` lists what each action can do to them.
-/

namespace ChatRoom

/-- What a step does to sessions, stored files, deliveries and queued work. -/
inductive Change (conn : ConnId) (s : Shared) : Act → Shared → Prop where
  | framed {action : Act} {s' : Shared} (hframed : action.framed = true) (hrest : s'.rest = s.rest) :
      Change conn s action s'
  | stored {action : Act} (hstoring : action.storing = true) (store : Store) :
      Change conn s action { s with store }
  | assigned (a : Assign) :
      Change conn s (.assign a) (s.setSession conn ((s.sessions conn).assign a))
  | revoked (target : ConnId) (groupName : Bytes) :
      Change conn s (.revokeGroupOffers target groupName) (s.revokeGroupOffers target groupName)
  | delivered (transfer : StoredFileTransfer) (startOffset : Nat) :
      Change conn s (.deliverAsync transfer startOffset) (s.deliverAsync conn transfer startOffset)
  | queued (target : ConnId) (call : LoopCall) :
      Change conn s (.queueInLoop target call) { s with loopCalls := s.loopCalls ++ [(target, call)] }
  | advanced {index : Nat} {s' : Shared} (hadvance : s.advancePump index = some s') :
      Change conn s (.advancePump index) s'

variable {crypto : Crypto} {conn : ConnId} {action : Act} {choice : Choice} {s s' : Shared}
  {result : action.Result}

theorem outcome_of_storing (hstoring : action.storing = true)
    (hexec : exec crypto conn action choice s = some (result, s')) :
    ∃ outcome, choice = .file outcome := by
  cases action with
  | beginOrResumeUpload | appendUploadBytes | finalizeUpload | cancelUpload | removeStored =>
    cases choice with
    | file outcome => exact ⟨outcome, rfl⟩
    | _ => cases hexec
  | _ => cases hstoring

theorem Change.of_exec (hexec : exec crypto conn action choice s = some (result, s')) :
    Change conn s action s' := by
  cases hframed : action.framed with
  | true => exact .framed hframed ((execFrame_of_exec hexec).rest hframed)
  | false =>
    cases action with
    | beginOrResumeUpload | appendUploadBytes | finalizeUpload | cancelUpload | removeStored =>
      cases choice with
      | file outcome =>
        obtain ⟨store, -, rfl⟩ := store_of_withStore hexec
        exact .stored rfl store
      | _ => cases hexec
    | assign a =>
      cases choice <;> cases hexec
      exact .assigned a
    | revokeGroupOffers target groupName =>
      cases choice <;> cases hexec
      exact .revoked target groupName
    | deliverAsync transfer startOffset =>
      cases choice <;> cases hexec
      exact .delivered transfer startOffset
    | queueInLoop target call =>
      cases choice <;> cases hexec
      exact .queued target call
    | advancePump index =>
      cases choice <;> simp only [exec, Option.map_eq_some_iff] at hexec <;> try cases hexec
      rename_i hadvance
      obtain ⟨hadvance, heq⟩ := hadvance
      cases heq
      exact .advanced hadvance
    | _ => cases hframed

/-! ### Deliveries -/

/-- A delivery that may still write to its connection. -/
def Pump.canEmit (pump : Pump) : Bool :=
  match pump.stage with
  | .submitted | .starting | .waiting | .sending => true
  | .finishing | .ended => false

namespace Shared

/-- One step of a delivery. -/
structure Advanced (s : Shared) (index : Nat) (pump pump' : Pump) (s' : Shared) : Prop where
  sessions : s'.sessions = s.sessions
  store : s'.store = s.store
  cancelFlags : s'.cancelFlags = s.cancelFlags
  pumps : s'.pumps = s.pumps.set index pump'
  connection : pump'.connection = pump.connection
  transfer : pump'.transfer = pump.transfer
  emits : pump'.canEmit = true → pump.canEmit = true
  loopCalls : s'.loopCalls = s.loopCalls ∨ ∃ error,
    s'.loopCalls = s.loopCalls ++ [(pump.connection, .deliveryFailed pump.transfer.id error)]

variable {index : Nat} {pump pump' : Pump}

theorem advanced_setPump (hrest : s'.rest = s.rest) (hconnection : pump'.connection = pump.connection)
    (htransfer : pump'.transfer = pump.transfer)
    (hemits : pump'.canEmit = true → pump.canEmit = true) :
    s.Advanced index pump pump' (s'.setPump index pump') where
  sessions := congrArg Rest.sessions hrest
  store := congrArg Rest.store hrest
  cancelFlags := congrArg Rest.cancelFlags hrest
  pumps := congrArg (fun rest => rest.pumps.set index pump') hrest
  connection := hconnection
  transfer := htransfer
  emits := hemits
  loopCalls := .inl (congrArg Rest.loopCalls hrest)

theorem advanced_failPump (hconnection : pump'.connection = pump.connection)
    (htransfer : pump'.transfer = pump.transfer) (error : String) :
    s.Advanced index pump { pump' with stage := .ended } (s.failPump index pump' error) where
  sessions := rfl
  store := rfl
  cancelFlags := rfl
  pumps := rfl
  connection := hconnection
  transfer := htransfer
  emits := nofun
  loopCalls := .inr ⟨utf8 error, by rw [failPump, hconnection, htransfer]⟩

theorem advanced_sendNext (hconnection : pump'.connection = pump.connection)
    (htransfer : pump'.transfer = pump.transfer) (hemits : pump.canEmit = true) :
    ∃ pump'', s.Advanced index pump pump'' (s.sendNext index pump') := by
  unfold sendNext
  split_ifs
  · exact ⟨_, advanced_failPump hconnection htransfer _⟩
  · exact ⟨_, advanced_failPump hconnection htransfer _⟩
  · exact ⟨{ pump' with stage := .finishing },
      advanced_setPump (s.rest_sendText _ _) hconnection htransfer fun _ => hemits⟩
  · exact ⟨{ pump' with stage := .waiting },
      advanced_setPump rfl hconnection htransfer fun _ => hemits⟩

theorem advanced_deliverFile (hemits : pump.canEmit = true) :
    ∃ pump', s.Advanced index pump pump' (s.deliverFile index pump) := by
  unfold deliverFile
  split_ifs
  · exact ⟨_, advanced_failPump rfl rfl _⟩
  · exact ⟨_, advanced_failPump rfl rfl _⟩
  · split
    · exact ⟨_, advanced_failPump rfl rfl _⟩
    · split_ifs
      · exact ⟨_, advanced_failPump rfl rfl _⟩
      · exact ⟨{ pump with stage := .starting },
          advanced_setPump (s.rest_sendText _ _) rfl rfl fun _ => hemits⟩

theorem advancePump_cases (hadvance : s.advancePump index = some s') :
    ∃ pump pump', s.pumps[index]? = some pump ∧ pump.stage ≠ .ended ∧
      s.Advanced index pump pump' s' := by
  unfold advancePump at hadvance
  split at hadvance
  · cases hadvance
  · rename_i pump hpump
    have hlive : pump.stage ≠ .ended := by
      intro hended
      rw [hended] at hadvance
      cases hadvance
    obtain ⟨pump', hadvanced⟩ : ∃ pump', s.Advanced index pump pump' s' := by
      have hemits : ∀ stage, pump.stage = stage → stage ≠ .finishing → stage ≠ .ended →
          pump.canEmit = true := by
        intro stage hstage hfinishing hended
        unfold Pump.canEmit
        rw [hstage]
        cases stage <;> trivial
      split at hadvance <;> rename_i hstage
      · cases hadvance
        exact advanced_deliverFile (hemits _ hstage nofun nofun)
      · cases hadvance
        exact advanced_sendNext rfl rfl (hemits _ hstage nofun nofun)
      · split at hadvance
        · cases hadvance
        · cases hadvance
          exact ⟨{ pump with stage := .sending },
            advanced_setPump rfl rfl rfl fun _ => hemits _ hstage nofun nofun⟩
      · split at hadvance
        · cases hadvance
          exact advanced_sendNext rfl rfl (hemits _ hstage nofun nofun)
        · cases hadvance
          exact ⟨_, advanced_failPump rfl rfl _⟩
      · cases hadvance
        exact ⟨{ pump with stage := .ended }, advanced_setPump rfl rfl rfl nofun⟩
      · cases hadvance
    exact ⟨pump, pump', hpump, hlive, hadvanced⟩

end Shared

theorem Change.session_field {β : Type} (field : ClientSession → β)
    (hwithdraw : ∀ session revoked, field (session.withdrawOffers revoked) = field session)
    (hbegin : ∀ session id flag, field (session.beginDelivery id flag) = field session)
    (hchange : Change conn s action s') :
    ((∀ a, action ≠ .assign a) ∧ ∀ other, field (s'.sessions other) = field (s.sessions other)) ∨
      ∃ a, action = .assign a ∧ s' = s.setSession conn ((s.sessions conn).assign a) := by
  have hupdate : ∀ target session, field session = field (s.sessions target) → ∀ other,
      field (Function.update s.sessions target session other) = field (s.sessions other) := by
    intro target session hfield other
    by_cases heq : other = target
    · rw [heq, Function.update_self, hfield]
    · rw [Function.update_of_ne heq]
  cases hchange with
  | framed hframed hrest =>
    left
    refine ⟨?_, fun other => ?_⟩
    · rintro a rfl
      cases hframed
    rw [show s'.sessions = s.sessions from congrArg Rest.sessions hrest]
  | stored hstoring =>
    left
    refine ⟨?_, fun other => rfl⟩
    rintro a rfl
    cases hstoring
  | queued => exact .inl ⟨nofun, fun _ => rfl⟩
  | assigned a => exact .inr ⟨a, rfl, rfl⟩
  | revoked target groupName => exact .inl ⟨nofun, hupdate target _ (hwithdraw _ _)⟩
  | delivered transfer startOffset => exact .inl ⟨nofun, hupdate conn _ (hbegin _ _ _)⟩
  | advanced hadvance =>
    obtain ⟨pump, pump', -, -, hadvanced⟩ := Shared.advancePump_cases hadvance
    left
    refine ⟨nofun, fun other => ?_⟩
    rw [hadvanced.sessions]

theorem Change.store (hchange : Change conn s action s') (hstoring : action.storing = false) :
    s'.store = s.store := by
  cases hchange with
  | framed hframed hrest => exact congrArg Rest.store hrest
  | stored hstored => rw [hstoring] at hstored; cases hstored
  | advanced hadvance =>
    obtain ⟨pump, pump', -, -, hadvanced⟩ := Shared.advancePump_cases hadvance
    exact hadvanced.store
  | _ => rfl

theorem Change.offeredFiles (hchange : Change conn s action s') (hassign : ∀ a, action ≠ .assign a)
    (other : ConnId) {offer : StoredFileTransfer}
    (hoffer : offer ∈ (s'.sessions other).offeredFiles) :
    offer ∈ (s.sessions other).offeredFiles := by
  have hupdate : ∀ target session,
      (∀ offer ∈ session.offeredFiles, offer ∈ (s.sessions target).offeredFiles) →
      offer ∈ (Function.update s.sessions target session other).offeredFiles →
      offer ∈ (s.sessions other).offeredFiles := by
    intro target session hsub hoffer
    by_cases heq : other = target
    · rw [heq, Function.update_self] at hoffer
      rw [heq]
      exact hsub offer hoffer
    · rwa [Function.update_of_ne heq] at hoffer
  cases hchange with
  | framed hframed hrest =>
    rwa [show s'.sessions = s.sessions from congrArg Rest.sessions hrest] at hoffer
  | assigned a => exact absurd rfl (hassign a)
  | revoked target groupName =>
    exact hupdate target _ (fun offer hoffer => (List.mem_filter.mp hoffer).1) hoffer
  | delivered transfer startOffset =>
    exact hupdate conn ((s.sessions conn).beginDelivery transfer.id s.cancelFlags.length)
      (fun offer hoffer => hoffer) hoffer
  | advanced hadvance =>
    obtain ⟨pump, pump', -, -, hadvanced⟩ := Shared.advancePump_cases hadvance
    rwa [hadvanced.sessions] at hoffer
  | _ => exact hoffer

theorem Change.pumps (hchange : Change conn s action s') {pump : Pump} (hpump : pump ∈ s'.pumps)
    (hlive : pump.stage ≠ .ended) :
    (∃ earlier ∈ s.pumps, earlier.stage ≠ .ended ∧ earlier.connection = pump.connection ∧
      earlier.transfer = pump.transfer) ∨
    ∃ startOffset, action = .deliverAsync pump.transfer startOffset ∧ pump.connection = conn := by
  cases hchange with
  | framed hframed hrest =>
    rw [show s'.pumps = s.pumps from congrArg Rest.pumps hrest] at hpump
    exact .inl ⟨pump, hpump, hlive, rfl, rfl⟩
  | delivered transfer startOffset =>
    rcases List.mem_append.mp hpump with hold | hnew
    · exact .inl ⟨pump, hold, hlive, rfl, rfl⟩
    · rw [List.mem_singleton.mp hnew]
      exact .inr ⟨startOffset, rfl, rfl⟩
  | advanced hadvance =>
    obtain ⟨earlier, pump', hearlier, hwas, hadvanced⟩ := Shared.advancePump_cases hadvance
    rw [hadvanced.pumps] at hpump
    rcases List.mem_or_eq_of_mem_set hpump with hold | rfl
    · exact .inl ⟨pump, hold, hlive, rfl, rfl⟩
    · exact .inl ⟨earlier, List.mem_of_getElem? hearlier, hwas, hadvanced.connection.symm,
        hadvanced.transfer.symm⟩
  | _ => exact .inl ⟨pump, hpump, hlive, rfl, rfl⟩

theorem Change.emitting (hchange : Change conn s action s') {index : Nat} {pump : Pump}
    (hpump : s'.pumps[index]? = some pump) (hemits : pump.canEmit = true) :
    (∃ earlier, s.pumps[index]? = some earlier ∧ earlier.canEmit = true ∧
      earlier.connection = pump.connection ∧ earlier.transfer = pump.transfer) ∨
    ∃ startOffset, action = .deliverAsync pump.transfer startOffset ∧ pump.connection = conn ∧
      index = s.pumps.length := by
  cases hchange with
  | framed hframed hrest =>
    rw [show s'.pumps = s.pumps from congrArg Rest.pumps hrest] at hpump
    exact .inl ⟨pump, hpump, hemits, rfl, rfl⟩
  | delivered transfer startOffset =>
    have happend : (s.pumps ++ [_])[index]? = some pump := hpump
    rw [List.getElem?_append] at happend
    split at happend
    · exact .inl ⟨pump, happend, hemits, rfl, rfl⟩
    · rw [List.getElem?_singleton] at happend
      split at happend
      · cases happend
        exact .inr ⟨startOffset, rfl, rfl, by omega⟩
      · cases happend
  | advanced hadvance =>
    obtain ⟨earlier, pump', hearlier, -, hadvanced⟩ := Shared.advancePump_cases hadvance
    rw [hadvanced.pumps, List.getElem?_set] at hpump
    split at hpump
    · rename_i heq
      split at hpump
      · cases hpump
        rw [← heq]
        exact .inl ⟨earlier, hearlier, hadvanced.emits hemits, hadvanced.connection.symm,
          hadvanced.transfer.symm⟩
      · cases hpump
    · exact .inl ⟨pump, hpump, hemits, rfl, rfl⟩
  | _ => exact .inl ⟨pump, hpump, hemits, rfl, rfl⟩

def Assign.unmarks (transferId : Nat) : Assign → Prop
  | .eraseDelivery id => id = transferId
  | .accountDeleted => True
  | _ => False

theorem Change.marks (hchange : Change conn s action s') {other : ConnId} {id : Nat}
    (hmarked : id ∈ (s.sessions other).fileDeliveriesInProgress) :
    id ∈ (s'.sessions other).fileDeliveriesInProgress ∨
      other = conn ∧ ∃ a, action = .assign a ∧ a.unmarks id := by
  have hupdate : ∀ target session,
      (other = target → id ∈ session.fileDeliveriesInProgress) →
      id ∈ (Function.update s.sessions target session other).fileDeliveriesInProgress := by
    intro target session hsession
    by_cases heq : other = target
    · subst heq
      rw [Function.update_self]
      exact hsession rfl
    · rwa [Function.update_of_ne heq]
  cases hchange with
  | framed hframed hrest =>
    rw [show s'.sessions = s.sessions from congrArg Rest.sessions hrest]
    exact .inl hmarked
  | assigned a =>
    by_cases hunmarks : other = conn ∧ a.unmarks id
    · exact .inr ⟨hunmarks.1, a, rfl, hunmarks.2⟩
    left
    refine hupdate conn _ fun heq => ?_
    subst heq
    have hkept : ¬a.unmarks id := fun h => hunmarks ⟨rfl, h⟩
    cases a with
    | eraseDelivery erased =>
      have hne : id ≠ erased := fun heq => hkept heq.symm
      simpa [ClientSession.assign, ClientSession.eraseDelivery, hne] using hmarked
    | accountDeleted => exact absurd trivial hkept
    | _ => exact hmarked
  | revoked target groupName =>
    left
    refine hupdate target _ fun heq => ?_
    subst heq
    exact hmarked
  | delivered transfer startOffset =>
    left
    refine hupdate conn _ fun heq => ?_
    subst heq
    exact List.mem_append_left _ hmarked
  | advanced hadvance =>
    obtain ⟨pump, pump', -, -, hadvanced⟩ := Shared.advancePump_cases hadvance
    rw [hadvanced.sessions]
    exact .inl hmarked
  | _ => exact .inl hmarked

theorem Change.marked (hchange : Change conn s action s') {other : ConnId} {id : Nat}
    (hmarked : id ∈ (s'.sessions other).fileDeliveriesInProgress) :
    id ∈ (s.sessions other).fileDeliveriesInProgress ∨
      other = conn ∧ ∃ transfer startOffset, action = .deliverAsync transfer startOffset := by
  have hupdate : ∀ target session, (other = target → id ∈ session.fileDeliveriesInProgress →
        id ∈ (s.sessions target).fileDeliveriesInProgress) →
      id ∈ (Function.update s.sessions target session other).fileDeliveriesInProgress →
      id ∈ (s.sessions other).fileDeliveriesInProgress := by
    intro target session hsession hmarked
    by_cases heq : other = target
    · subst heq
      rw [Function.update_self] at hmarked
      exact hsession rfl hmarked
    · rwa [Function.update_of_ne heq] at hmarked
  cases hchange with
  | framed hframed hrest =>
    rw [show s'.sessions = s.sessions from congrArg Rest.sessions hrest] at hmarked
    exact .inl hmarked
  | assigned a =>
    left
    refine hupdate conn _ (fun heq hmarked => ?_) hmarked
    cases a with
    | eraseDelivery erased => exact (List.mem_filter.mp hmarked).1
    | accountDeleted => exact absurd hmarked List.not_mem_nil
    | _ => exact hmarked
  | revoked target groupName =>
    left
    exact hupdate target ((s.sessions target).withdrawOffers _) (fun _ hmarked => hmarked) hmarked
  | delivered transfer startOffset =>
    by_cases heq : other = conn
    · exact .inr ⟨heq, transfer, startOffset, rfl⟩
    · left
      exact hupdate conn _ (fun h => absurd h heq) hmarked
  | advanced hadvance =>
    obtain ⟨pump, pump', -, -, hadvanced⟩ := Shared.advancePump_cases hadvance
    rw [hadvanced.sessions] at hmarked
    exact .inl hmarked
  | _ => exact .inl hmarked

theorem Change.loopCalls (hchange : Change conn s action s') {target : ConnId}
    {transfer : StoredFileTransfer} {recipient : Bytes}
    (hcall : (target, LoopCall.deliverFileToUser transfer recipient) ∈ s'.loopCalls) :
    (target, LoopCall.deliverFileToUser transfer recipient) ∈ s.loopCalls ∨
      action = .queueInLoop target (.deliverFileToUser transfer recipient) := by
  cases hchange with
  | framed hframed hrest =>
    rw [show s'.loopCalls = s.loopCalls from congrArg Rest.loopCalls hrest] at hcall
    exact .inl hcall
  | queued target' call =>
    rcases List.mem_append.mp hcall with hold | hnew
    · exact .inl hold
    · cases List.mem_singleton.mp hnew
      exact .inr rfl
  | advanced hadvance =>
    obtain ⟨pump, pump', -, -, hadvanced⟩ := Shared.advancePump_cases hadvance
    rcases hadvanced.loopCalls with hsame | ⟨error, hfailed⟩
    · rw [hsame] at hcall
      exact .inl hcall
    · rw [hfailed] at hcall
      rcases List.mem_append.mp hcall with hold | hnew
      · exact .inl hold
      · cases List.mem_singleton.mp hnew
  | _ => exact .inl hcall

end ChatRoom
