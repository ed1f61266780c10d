import Mathlib.Algebra.Order.Group.Multiset
import Mathlib.Logic.Relation

/-!
# A channel that emits requests piece by piece

A channel takes requests, numbers those it accepts and hands their symbols to a sink.
-/

namespace OutputLedger

variable {Req Symbol Owner Outcome Task : Type}

structure Numbered (Req : Type) where
  id : Nat
  request : Req
  deriving DecidableEq, Repr

def Numbered.map {Req Req' : Type} (f : Req → Req') (unit : Numbered Req) : Numbered Req' :=
  ⟨unit.id, f unit.request⟩

@[ext]
structure Ledger (Req Symbol : Type) where
  requested : Multiset Req := 0
  accepted : List (Numbered Req) := []
  waiting : Multiset (Numbered Req) := 0
  dropped : Multiset (Numbered Req) := 0
  started : List (Numbered Req) := []
  current : Option (Numbered Req × List Symbol) := none
  buffered : List Symbol := []
  emitted : List Symbol := []
  live : Multiset (Numbered Req) := 0
  ready : Multiset (Numbered Req) := 0
  fired : Multiset (Numbered Req) := 0

structure Client (Req Owner Outcome Task : Type) where
  completed : Req → Bool → Outcome → Owner → Owner × List Req
  background : Task → Bool → Owner → Owner × List Req

section Books

variable (symbols : Req → List Symbol)

def concat (units : List (Numbered Req)) : List Symbol :=
  units.flatMap fun unit => symbols unit.request

variable {symbols}

@[simp] theorem concat_nil : concat symbols [] = [] := rfl

@[simp] theorem concat_append (first second : List (Numbered Req)) :
    concat symbols (first ++ second) = concat symbols first ++ concat symbols second :=
  List.flatMap_append

@[simp] theorem concat_singleton (unit : Numbered Req) :
    concat symbols [unit] = symbols unit.request := by
  simp [concat]

variable (symbols)

/-- Every symbol of the request, and of those started before it, is with the sink. -/
def Handed (ledger : Ledger Req Symbol) (unit : Numbered Req) : Prop :=
  ∃ before after, ledger.started = before ++ unit :: after ∧
    concat symbols (before ++ [unit]) <+: ledger.emitted

/-- What has left the queues so far: the started requests, the one in the middle of which the output
is as far as it has come. -/
def Written (ledger : Ledger Req Symbol) : Prop :=
  match ledger.current with
  | none => ledger.emitted ++ ledger.buffered = concat symbols ledger.started
  | some (unit, rest) => ∃ before done, ledger.started = before ++ [unit] ∧
      symbols unit.request = done ++ rest ∧
      ledger.emitted ++ ledger.buffered = concat symbols before ++ done

variable (foreign unsent : Req → Prop) (client : Client Req Owner Outcome Task)

/-- One entry in the books. `foreign` are the requests made by other code than the client, `unsent`
those whose completion may be run although they were dropped. -/
inductive Step : Ledger Req Symbol × Owner → Ledger Req Symbol × Owner → Prop where
  | request {ledger owner} (req : Req) : foreign req →
      Step (ledger, owner) ({ ledger with requested := ledger.requested + {req} }, owner)
  | refuse {ledger owner} (req : Req) (others : Multiset Req) :
      ledger.requested = others + {req} →
      Step (ledger, owner) ({ ledger with requested := others }, owner)
  | accept {ledger owner} (req : Req) (others : Multiset Req) :
      ledger.requested = others + {req} →
      Step (ledger, owner)
        ({ ledger with
            requested := others
            accepted := ledger.accepted ++ [⟨ledger.accepted.length, req⟩]
            waiting := ledger.waiting + {⟨ledger.accepted.length, req⟩}
            live := ledger.live + {⟨ledger.accepted.length, req⟩} }, owner)
  | drop {ledger owner} (unit : Numbered Req) (others : Multiset (Numbered Req)) :
      ledger.waiting = others + {unit} →
      Step (ledger, owner)
        ({ ledger with waiting := others, dropped := ledger.dropped + {unit} }, owner)
  | startWhole {ledger owner} (unit : Numbered Req) (others : Multiset (Numbered Req)) :
      ledger.waiting = others + {unit} → ledger.current = none →
      Step (ledger, owner)
        ({ ledger with
            waiting := others
            started := ledger.started ++ [unit]
            buffered := ledger.buffered ++ symbols unit.request }, owner)
  | startPart {ledger owner} (unit : Numbered Req) (others : Multiset (Numbered Req))
      (first rest : List Symbol) :
      ledger.waiting = others + {unit} → ledger.current = none →
      symbols unit.request = first ++ rest →
      Step (ledger, owner)
        ({ ledger with
            waiting := others
            started := ledger.started ++ [unit]
            current := some (unit, rest)
            buffered := ledger.buffered ++ first }, owner)
  | write {ledger owner} (first rest : List Symbol) : ledger.buffered = first ++ rest →
      Step (ledger, owner)
        ({ ledger with buffered := rest, emitted := ledger.emitted ++ first }, owner)
  | writeCurrent {ledger owner} (unit : Numbered Req) (first rest : List Symbol) :
      ledger.buffered = [] → ledger.current = some (unit, first ++ rest) →
      Step (ledger, owner)
        ({ ledger with current := some (unit, rest), emitted := ledger.emitted ++ first }, owner)
  | endCurrent {ledger owner} (unit : Numbered Req) : ledger.current = some (unit, []) →
      Step (ledger, owner) ({ ledger with current := none }, owner)
  | lose {ledger owner} (unit : Numbered Req) (others : Multiset (Numbered Req)) :
      ledger.live = others + {unit} →
      Step (ledger, owner) ({ ledger with live := others }, owner)
  | release {ledger owner} (unit : Numbered Req) (others : Multiset (Numbered Req)) :
      ledger.live = others + {unit} →
      Handed symbols ledger unit ∨ (unit ∈ ledger.dropped ∧ unsent unit.request) →
      Step (ledger, owner)
        ({ ledger with live := others, ready := ledger.ready + {unit} }, owner)
  | discard {ledger owner} (unit : Numbered Req) (others : Multiset (Numbered Req)) :
      ledger.ready = others + {unit} →
      Step (ledger, owner) ({ ledger with ready := others }, owner)
  | fire {ledger owner} (unit : Numbered Req) (others : Multiset (Numbered Req)) (opened : Bool)
      (outcome : Outcome) :
      ledger.ready = others + {unit} →
      Step (ledger, owner)
        ({ ledger with
            ready := others
            fired := ledger.fired + {unit}
            requested := ledger.requested +
              ((client.completed unit.request opened outcome owner).2 : Multiset Req) },
          (client.completed unit.request opened outcome owner).1)
  | background {ledger owner} (task : Task) (opened : Bool) :
      Step (ledger, owner)
        ({ ledger with
            requested := ledger.requested +
              ((client.background task opened owner).2 : Multiset Req) },
          (client.background task opened owner).1)

structure Sound (ledger : Ledger Req Symbol) : Prop where
  numbered : ∀ (index : Nat) (unit : Numbered Req), ledger.accepted[index]? = some unit →
    unit.id = index
  accounted : (ledger.started : Multiset (Numbered Req)) + ledger.waiting + ledger.dropped =
    ledger.accepted
  once : ledger.live + ledger.ready + ledger.fired ≤ (ledger.accepted : Multiset (Numbered Req))
  written : Written symbols ledger
  handed : ∀ unit ∈ ledger.ready + ledger.fired,
    Handed symbols ledger unit ∨ (unit ∈ ledger.dropped ∧ unsent unit.request)

end Books

section Facts

variable {symbols : Req → List Symbol} {foreign unsent : Req → Prop}
  {client : Client Req Owner Outcome Task} {ledger ledger' : Ledger Req Symbol} {owner owner' : Owner}

theorem sound_empty : Sound symbols unsent ({} : Ledger Req Symbol) where
  numbered := by simp
  accounted := by simp
  once := by simp
  written := by simp [Written]
  handed := by simp

theorem Handed.mono {unit : Numbered Req} (h : Handed symbols ledger unit)
    (hstarted : ledger.started <+: ledger'.started) (hemitted : ledger.emitted <+: ledger'.emitted) :
    Handed symbols ledger' unit := by
  obtain ⟨before, after, hsplit, hprefix⟩ := h
  obtain ⟨more, hmore⟩ := hstarted
  refine ⟨before, after ++ more, ?_, hprefix.trans hemitted⟩
  rw [← hmore, hsplit]
  simp

theorem handed_of_concat {unit : Numbered Req} (h : concat symbols ledger.started <+: ledger.emitted)
    (hstarted : unit ∈ ledger.started) : Handed symbols ledger unit := by
  obtain ⟨before, after, hsplit⟩ := List.append_of_mem hstarted
  refine ⟨before, after, hsplit, List.IsPrefix.trans ⟨concat symbols after, ?_⟩ h⟩
  rw [hsplit, ← concat_append, List.append_assoc, List.singleton_append]

theorem Handed.length_le {unit : Numbered Req} (h : Handed symbols ledger unit) :
    (symbols unit.request).length ≤ ledger.emitted.length := by
  obtain ⟨before, after, -, hemitted⟩ := h
  have hlength := hemitted.length_le
  rw [concat_append, concat_singleton, List.length_append] at hlength
  omega

theorem handed_of_flushed {unit : Numbered Req} (hwritten : Written symbols ledger)
    (hflushed : ledger.buffered = []) (hstarted : unit ∈ ledger.started)
    (hother : ∀ rest, ledger.current ≠ some (unit, rest)) : Handed symbols ledger unit := by
  unfold Written at hwritten
  rw [hflushed, List.append_nil] at hwritten
  cases hcurrent : ledger.current with
  | none =>
    rw [hcurrent] at hwritten
    exact handed_of_concat (hwritten ▸ List.prefix_rfl) hstarted
  | some part =>
    obtain ⟨current, rest⟩ := part
    rw [hcurrent] at hwritten
    obtain ⟨earlier, done, hsplit, -, hemitted⟩ := hwritten
    have hearlier : unit ∈ earlier := by
      rw [hsplit, List.mem_append, List.mem_singleton] at hstarted
      refine hstarted.resolve_right ?_
      rintro rfl
      exact hother rest hcurrent
    obtain ⟨before, after, hbefore⟩ := List.append_of_mem hearlier
    refine ⟨before, after ++ [current], ?_, concat symbols after ++ done, ?_⟩
    · rw [hsplit, hbefore]
      simp
    · rw [hemitted, hbefore, ← List.append_assoc, ← concat_append, List.append_assoc,
        List.singleton_append]

theorem handed_current {unit : Numbered Req} (hwritten : Written symbols ledger)
    (hflushed : ledger.buffered = []) (hcurrent : ledger.current = some (unit, [])) :
    Handed symbols ledger unit := by
  unfold Written at hwritten
  rw [hcurrent, hflushed, List.append_nil] at hwritten
  obtain ⟨before, done, hsplit, hdone, hemitted⟩ := hwritten
  refine ⟨before, [], hsplit, ?_⟩
  have hall : concat symbols (before ++ [unit]) = ledger.emitted := by
    rw [hemitted, concat_append, concat_singleton, hdone, List.append_nil]
  exact hall ▸ List.prefix_rfl

def Ledger.remaining (ledger : Ledger Req Symbol) : List Symbol :=
  ledger.buffered ++ (ledger.current.map Prod.snd).getD []

/-- **Framing.** What the sink has and what is kept for it are whole requests, one after the
other. -/
theorem emitted_append_remaining (hwritten : Written symbols ledger) :
    ledger.emitted ++ ledger.remaining = concat symbols ledger.started := by
  unfold Written at hwritten
  unfold Ledger.remaining
  cases hcurrent : ledger.current with
  | none =>
    rw [hcurrent] at hwritten
    rw [Option.map_none, Option.getD_none, List.append_nil]
    exact hwritten
  | some part =>
    obtain ⟨unit, rest⟩ := part
    rw [hcurrent] at hwritten
    obtain ⟨before, done, hsplit, hdone, hemitted⟩ := hwritten
    rw [Option.map_some, Option.getD_some, hsplit, concat_append, concat_singleton, hdone,
      ← List.append_assoc, hemitted, List.append_assoc]

theorem Sound.nodup_accepted (h : Sound symbols unsent ledger) : ledger.accepted.Nodup := by
  rw [List.nodup_iff_getElem?_ne_getElem?]
  intro first second hlt hlength heq
  have hfirst : first < ledger.accepted.length := hlt.trans hlength
  have hone := h.numbered first _ (List.getElem?_eq_getElem hfirst)
  have htwo := h.numbered second _ (heq.symm.trans (List.getElem?_eq_getElem hfirst))
  omega

theorem Sound.nodup_started (h : Sound symbols unsent ledger) : ledger.started.Nodup := by
  have haccepted : (ledger.accepted : Multiset (Numbered Req)).Nodup := h.nodup_accepted
  rw [← h.accounted, add_assoc] at haccepted
  exact Multiset.nodup_of_le (Multiset.le_add_right _ _) haccepted

theorem Sound.remaining_eq_nil (h : Sound symbols unsent ledger)
    (hhanded : ∀ unit ∈ ledger.started, Handed symbols ledger unit) : ledger.remaining = [] := by
  have hsplit := emitted_append_remaining h.written
  have hall : concat symbols ledger.started <+: ledger.emitted := by
    rcases List.eq_nil_or_concat ledger.started with hnone | ⟨first, last, hlast⟩
    · rw [hnone]
      exact List.nil_prefix
    · obtain ⟨before, after, hstarted, hemitted⟩ := hhanded last (by simp [hlast])
      -- the last request stands nowhere else
      have hafter : after = [] := by
        rcases List.eq_nil_or_concat after with hnone | ⟨middle, final, hfinal⟩
        · exact hnone
        · have hends : first ++ [last] = (before ++ last :: middle) ++ [final] := by
            rw [← List.concat_eq_append, ← hlast, hstarted, hfinal]
            simp
          have hsame : last = final := by simpa using (List.append_inj' hends rfl).2
          have hnodup := h.nodup_started
          rw [hstarted, hfinal, ← hsame] at hnodup
          exact absurd (by simp) (List.nodup_cons.mp (List.nodup_append.mp hnodup).2.1).1
      rw [hstarted, hafter]
      exact hemitted
  have hlength := hall.length_le
  rw [← hsplit, List.length_append] at hlength
  exact List.length_eq_zero_iff.mp (by omega)

theorem Step.grows (h : Step symbols foreign unsent client (ledger, owner) (ledger', owner')) :
    ledger.started <+: ledger'.started ∧ ledger.emitted <+: ledger'.emitted ∧
      ledger.dropped ≤ ledger'.dropped := by
  cases h <;> simp

section

variable (hsound : Sound symbols unsent ledger)
  (h : Step symbols foreign unsent client (ledger, owner) (ledger', owner'))
include hsound h

theorem Step.numbered :
    ∀ (index : Nat) (unit : Numbered Req), ledger'.accepted[index]? = some unit →
      unit.id = index := by
  have hold := hsound.numbered
  cases h with
  | accept req others hrequested =>
    intro index unit hunit
    rcases lt_or_ge index ledger.accepted.length with hlt | hge
    · rw [List.getElem?_append_left hlt] at hunit
      exact hold index unit hunit
    · rw [List.getElem?_append_right hge, List.getElem?_singleton] at hunit
      split at hunit
      · cases hunit
        simp only
        omega
      · cases hunit
  | _ => exact hold

theorem Step.accounted :
    (ledger'.started : Multiset (Numbered Req)) + ledger'.waiting + ledger'.dropped =
      ledger'.accepted := by
  have hold := hsound.accounted
  cases h with
  | accept req others hrequested =>
    simp only [← Multiset.coe_add, Multiset.coe_singleton]
    rw [← hold]
    ac_rfl
  | drop unit others hwaiting =>
    dsimp only
    rw [← hold, hwaiting]
    ac_rfl
  | startWhole unit others hwaiting hcurrent =>
    simp only [← Multiset.coe_add, Multiset.coe_singleton]
    rw [← hold, hwaiting]
    ac_rfl
  | startPart unit others first rest hwaiting hcurrent hsymbols =>
    simp only [← Multiset.coe_add, Multiset.coe_singleton]
    rw [← hold, hwaiting]
    ac_rfl
  | _ => exact hold

theorem Step.once :
    ledger'.live + ledger'.ready + ledger'.fired ≤
      (ledger'.accepted : Multiset (Numbered Req)) := by
  have hold := hsound.once
  cases h with
  | accept req others hrequested =>
    simp only [← Multiset.coe_add, Multiset.coe_singleton]
    calc
      ledger.live + {⟨ledger.accepted.length, req⟩} + ledger.ready + ledger.fired =
          ledger.live + ledger.ready + ledger.fired + {⟨ledger.accepted.length, req⟩} := by
        ac_rfl
      _ ≤ (ledger.accepted : Multiset (Numbered Req)) + {⟨ledger.accepted.length, req⟩} :=
        Multiset.add_le_add_right hold
  | lose unit others hlive =>
    refine le_trans ?_ hold
    rw [hlive]
    gcongr
    exact Multiset.le_add_right others {unit}
  | release unit others hlive hhanded =>
    refine le_trans (le_of_eq ?_) hold
    dsimp only
    rw [hlive]
    ac_rfl
  | discard unit others hready =>
    refine le_trans ?_ hold
    rw [hready]
    gcongr
    exact Multiset.le_add_right others {unit}
  | fire unit others opened outcome hready =>
    refine le_trans (le_of_eq ?_) hold
    dsimp only
    rw [hready]
    ac_rfl
  | _ => exact hold

theorem Step.written : Written symbols ledger' := by
  have hold := hsound.written
  unfold Written at hold ⊢
  cases h with
  | startWhole unit others hwaiting hcurrent =>
    rw [hcurrent] at hold ⊢
    simp only [concat_append, concat_singleton, ← hold, List.append_assoc]
  | startPart unit others first rest hwaiting hcurrent hsymbols =>
    rw [hcurrent] at hold
    exact ⟨ledger.started, first, rfl, hsymbols, by rw [← List.append_assoc, hold]⟩
  | write first rest hbuffered =>
    rw [hbuffered] at hold
    simpa only [List.append_assoc] using hold
  | writeCurrent unit first rest hbuffered hcurrent =>
    rw [hcurrent] at hold
    obtain ⟨before, done, hsplit, hdone, hemitted⟩ := hold
    refine ⟨before, done ++ first, hsplit, by rw [hdone, List.append_assoc], ?_⟩
    rw [hbuffered, List.append_nil] at hemitted ⊢
    rw [hemitted, List.append_assoc]
  | endCurrent unit hcurrent =>
    rw [hcurrent] at hold
    obtain ⟨before, done, hsplit, hdone, hemitted⟩ := hold
    rw [List.append_nil] at hdone
    rw [hemitted, hsplit, concat_append, concat_singleton, hdone]
  | _ => exact hold

theorem Step.handed :
    ∀ unit ∈ ledger'.ready + ledger'.fired,
      Handed symbols ledger' unit ∨ (unit ∈ ledger'.dropped ∧ unsent unit.request) := by
  obtain ⟨hstarted, hemitted, hdropped⟩ := h.grows
  have hkeeps : ∀ unit, Handed symbols ledger unit ∨ (unit ∈ ledger.dropped ∧ unsent unit.request) →
      Handed symbols ledger' unit ∨ (unit ∈ ledger'.dropped ∧ unsent unit.request) := by
    intro unit hunit
    exact hunit.imp (fun hhanded => hhanded.mono hstarted hemitted)
      (fun hlost => ⟨Multiset.mem_of_le hdropped hlost.1, hlost.2⟩)
  intro unit hunit
  by_cases hbefore : unit ∈ ledger.ready + ledger.fired
  · exact hkeeps unit (hsound.handed unit hbefore)
  · cases h with
    | release released others hlive hhanded =>
      have hself : unit = released := by
        simp only [Multiset.mem_add, Multiset.mem_singleton] at hunit hbefore
        tauto
      subst hself
      exact hhanded
    | discard lost others hready =>
      have hmem : unit ∈ ledger.ready + ledger.fired := by
        rw [hready]
        simp only [Multiset.mem_add] at hunit ⊢
        tauto
      exact absurd hmem hbefore
    | fire fired others opened outcome hready =>
      have hmem : unit ∈ ledger.ready + ledger.fired := by
        rw [hready]
        simp only [Multiset.mem_add, Multiset.mem_singleton] at hunit ⊢
        tauto
      exact absurd hmem hbefore
    | _ => exact absurd hunit hbefore

theorem Step.sound : Sound symbols unsent ledger' :=
  ⟨h.numbered hsound, h.accounted hsound, h.once hsound, h.written hsound, h.handed hsound⟩

end

theorem steps_sound {first last : Ledger Req Symbol × Owner}
    (hsound : Sound symbols unsent first.1)
    (h : Relation.ReflTransGen (Step symbols foreign unsent client) first last) :
    Sound symbols unsent last.1 := by
  induction h with
  | refl => exact hsound
  | tail _ hstep ih => exact hstep.sound ih

theorem steps_to {ledger'' : Ledger Req Symbol}
    (h : Relation.ReflTransGen (Step symbols foreign unsent client) (ledger, owner)
      (ledger', owner')) (heq : ledger' = ledger'') :
    Relation.ReflTransGen (Step symbols foreign unsent client) (ledger, owner)
      (ledger'', owner') := heq ▸ h

theorem Step.frame (more : Multiset Req)
    (h : Step symbols foreign unsent client (ledger, owner) (ledger', owner')) :
    Step symbols foreign unsent client
      ({ ledger with requested := ledger.requested + more }, owner)
      ({ ledger' with requested := ledger'.requested + more }, owner') := by
  cases h with
  | request req hreq =>
    have hstep : Step symbols foreign unsent client
        ({ ledger with requested := ledger.requested + more }, owner) (_, owner) := .request req hreq
    simpa only [add_right_comm] using hstep
  | refuse req others hrequested =>
    refine .refuse req (others + more) ?_
    dsimp only
    rw [hrequested, add_right_comm]
  | accept req others hrequested =>
    refine .accept req (others + more) ?_
    dsimp only
    rw [hrequested, add_right_comm]
  | drop unit others hwaiting => exact .drop unit others hwaiting
  | startWhole unit others hwaiting hcurrent => exact .startWhole unit others hwaiting hcurrent
  | startPart unit others first rest hwaiting hcurrent hsymbols =>
    exact .startPart unit others first rest hwaiting hcurrent hsymbols
  | write first rest hbuffered => exact .write first rest hbuffered
  | writeCurrent unit first rest hbuffered hcurrent =>
    exact .writeCurrent unit first rest hbuffered hcurrent
  | endCurrent unit hcurrent => exact .endCurrent unit hcurrent
  | lose unit others hlive => exact .lose unit others hlive
  | release unit others hlive hhanded => exact .release unit others hlive hhanded
  | discard unit others hready => exact .discard unit others hready
  | fire unit others opened outcome hready =>
    have hstep : Step symbols foreign unsent client
        ({ ledger with requested := ledger.requested + more }, owner) (_, _) :=
      .fire unit others opened outcome hready
    simpa only [add_right_comm] using hstep
  | background task opened =>
    have hstep : Step symbols foreign unsent client
        ({ ledger with requested := ledger.requested + more }, owner) (_, _) :=
      .background task opened
    simpa only [add_right_comm] using hstep

theorem steps_frame {first last : Ledger Req Symbol × Owner} (more : Multiset Req)
    (h : Relation.ReflTransGen (Step symbols foreign unsent client) first last) :
    Relation.ReflTransGen (Step symbols foreign unsent client)
      ({ first.1 with requested := first.1.requested + more }, first.2)
      ({ last.1 with requested := last.1.requested + more }, last.2) := by
  induction h with
  | refl => exact .refl
  | tail _ hstep ih => exact ih.tail (hstep.frame more)

theorem steps_requestAll {reqs : List Req} (hforeign : ∀ req ∈ reqs, foreign req) :
    Relation.ReflTransGen (Step symbols foreign unsent client) (ledger, owner)
      ({ ledger with requested := ledger.requested + (reqs : Multiset Req) }, owner) := by
  induction reqs generalizing ledger with
  | nil =>
    refine steps_to .refl ?_
    ext1 <;> simp
  | cons req reqs ih =>
    have hrest := fun req hreq => hforeign req (List.mem_cons_of_mem _ hreq)
    refine steps_to (.head (.request req (hforeign req List.mem_cons_self)) (ih hrest)) ?_
    ext1 <;> try rfl
    simp only [← Multiset.cons_coe, ← Multiset.singleton_add]
    ac_rfl

theorem steps_handOver (hsound : Sound symbols unsent ledger) {unit : Numbered Req}
    {others tokens : Multiset (Numbered Req)} (hwaiting : ledger.waiting = others + {unit})
    (hlive : ledger.live = tokens + {unit}) (hcurrent : ledger.current = none)
    (hbuffered : ledger.buffered = []) :
    Relation.ReflTransGen (Step symbols foreign unsent client) (ledger, owner)
      ({ ledger with
          waiting := others
          started := ledger.started ++ [unit]
          buffered := []
          emitted := ledger.emitted ++ symbols unit.request
          live := tokens
          ready := ledger.ready + {unit} }, owner) := by
  let begun : Ledger Req Symbol :=
    { ledger with
      waiting := others
      started := ledger.started ++ [unit]
      buffered := ledger.buffered ++ symbols unit.request }
  let written : Ledger Req Symbol :=
    { begun with buffered := [], emitted := ledger.emitted ++ symbols unit.request }
  have hstart : Step symbols foreign unsent client (ledger, owner) (begun, owner) :=
    .startWhole unit others hwaiting hcurrent
  have hwrite : Step symbols foreign unsent client (begun, owner) (written, owner) :=
    .write (symbols unit.request) [] (by simp [begun, hbuffered])
  have hhanded : Handed symbols written unit := by
    refine handed_of_flushed (hwrite.sound (hstart.sound hsound)).written rfl ?_ ?_
    · simp [written, begun]
    · intro rest
      simp [written, begun, hcurrent]
  exact .head hstart (.head hwrite (.single (.release unit tokens hlive (Or.inl hhanded))))

theorem steps_finish (hsound : Sound symbols unsent ledger) {unit : Numbered Req}
    {tokens : Multiset (Numbered Req)} (hlive : ledger.live = tokens + {unit})
    (hcurrent : ledger.current = some (unit, [])) (hbuffered : ledger.buffered = []) :
    Relation.ReflTransGen (Step symbols foreign unsent client) (ledger, owner)
      ({ ledger with
          current := none
          live := tokens
          ready := ledger.ready + {unit} }, owner) := by
  have hhanded : Handed symbols ledger unit :=
    handed_current hsound.written hbuffered hcurrent
  exact .head (.release unit tokens hlive (Or.inl hhanded)) (.single (.endCurrent unit hcurrent))

theorem steps_releaseAll (hsound : Sound symbols unsent ledger) {units : List (Numbered Req)}
    {tokens : Multiset (Numbered Req)}
    (hlive : ledger.live = tokens + (units : Multiset (Numbered Req)))
    (hhanded : ∀ unit ∈ units, Handed symbols ledger unit) :
    Relation.ReflTransGen (Step symbols foreign unsent client) (ledger, owner)
      ({ ledger with
          live := tokens
          ready := ledger.ready + (units : Multiset (Numbered Req)) }, owner) := by
  induction units generalizing ledger with
  | nil =>
    refine steps_to .refl ?_
    ext1 <;> simp [hlive]
  | cons unit units ih =>
    have hsplit : ledger.live =
        tokens + (units : Multiset (Numbered Req)) + {unit} := by
      rw [hlive, ← Multiset.cons_coe, ← Multiset.singleton_add]
      ac_rfl
    have hrelease : Step symbols foreign unsent client (ledger, owner) (_, owner) :=
      .release unit _ hsplit (Or.inl (hhanded unit List.mem_cons_self))
    refine steps_to (.head hrelease (ih (hrelease.sound hsound) rfl ?_)) ?_
    · intro other hother
      exact (hhanded other (List.mem_cons_of_mem _ hother)).mono hrelease.grows.1
        hrelease.grows.2.1
    · ext1 <;> try rfl
      simp only [← Multiset.cons_coe, ← Multiset.singleton_add]
      ac_rfl

end Facts

end OutputLedger
