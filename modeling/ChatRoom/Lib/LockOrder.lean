import ChatRoom.Lib.Typestate
import Mathlib.Data.Set.Insert
import Mathlib.Logic.Relation

/-!
# Ordered locks

Threads that take locks in the order of their ranks, give back what they took and wait for nothing
else while they hold a lock never wait for each other in a circle.
-/

namespace Interleaving

variable {Tid Act : Type} {Res : Act → Type} {Choice Cmd Shared L : Type} [DecidableEq L]

/-- What an action does to the locks. One that `waits` may be blocked by something else. -/
inductive LockUse (L : Type) where
  | plain
  | take (lock : L)
  | give (lock : L)
  | waits

def LockUse.Changes (tid : Tid) (owner owner' : L → Option Tid) : LockUse L → Prop
  | .take lock => owner lock = none ∧ owner' = Function.update owner lock (some tid)
  | .give lock => owner lock = some tid ∧ owner' = Function.update owner lock none
  | _ => owner' = owner

/-- The discipline of a program that holds some locks. -/
def lockOrder (use : Act → LockUse L) (rank : L → Nat) : Typestate Act Res (Set L) where
  allowed held action :=
    match use action with
    | .plain => True
    | .take lock => ∀ other ∈ held, rank other < rank lock
    | .give lock => lock ∈ held
    | .waits => held = ∅
  after held action _ :=
    match use action with
    | .take lock => insert lock held
    | .give lock => held \ {lock}
    | _ => held

/-- The locks of a system, with the laws of mutexes. -/
structure Locks (sys : System Tid Act Res Choice Cmd Shared) (L : Type) [DecidableEq L] where
  owner : Shared → L → Option Tid
  use : Act → LockUse L
  rank : L → Nat
  highest : Nat
  rank_le : ∀ lock, rank lock ≤ highest
  launched : ∀ {tid cmd s prog s'}, sys.launch tid cmd s = some (prog, s') → owner s' = owner s
  executed : ∀ {tid action choice s result s'}, sys.exec tid action choice s = some (result, s') →
    (use action).Changes tid (owner s) (owner s')
  enabled : ∀ {tid action s}, use action ≠ .waits →
    (∀ lock, use action = .take lock → owner s lock = none) →
    (∀ lock, use action = .give lock → owner s lock = some tid) →
    ∃ choice result s', sys.exec tid action choice s = some (result, s')

namespace Locks

variable {sys : System Tid Act Res Choice Cmd Shared} (locks : Locks sys L)

def held (s : Shared) (tid : Tid) : Set L := {lock | locks.owner s lock = some tid}

def order : Typestate Act Res (Set L) := lockOrder locks.use locks.rank

/-- Every thread keeps to the order from the locks it holds on, and ends without any. -/
def Kept (config : Config Tid Act Res Shared) : Prop :=
  ∀ tid, locks.order.Keeps (config.code tid) (locks.held config.shared tid) fun _ held => held = ∅

/-- The thread is about to take a lock that the other one holds. -/
def WaitsFor (config : Config Tid Act Res Shared) (tid holder : Tid) : Prop :=
  ∃ action next lock, config.code tid = .act action next ∧ locks.use action = .take lock ∧
    lock ∈ locks.held config.shared holder

variable {config config' : Config Tid Act Res Shared}

theorem held_exec {tid : Tid} {action : Act} {choice : Choice} {s s' : Shared}
    {result : Res action} (hexec : sys.exec tid action choice s = some (result, s')) :
    locks.held s' tid = locks.order.after (locks.held s tid) action result ∧
      ∀ other, other ≠ tid → locks.held s' other = locks.held s other := by
  have howner := locks.executed hexec
  cases huse : locks.use action with
  | plain | waits =>
    simp only [huse, LockUse.Changes] at howner
    simp [held, howner, order, lockOrder, huse]
  | take lock | give lock =>
    simp only [huse, LockUse.Changes] at howner
    refine ⟨Set.ext fun l => ?_, fun other hother => Set.ext fun l => ?_⟩
    · by_cases hlock : l = lock <;> simp [held, howner, order, lockOrder, huse, hlock]
    · by_cases hlock : l = lock <;> simp [held, howner, hlock, Ne.symm hother]

variable {locks} [DecidableEq Tid]

theorem Kept.next {event : Event Tid Choice Cmd}
    (hlaunch : ∀ tid cmd s prog s', sys.launch tid cmd s = some (prog, s') →
      locks.order.Keeps prog ∅ fun _ held => held = ∅)
    (hkept : locks.Kept config) (hnext : sys.next config event = some config') :
    locks.Kept config' := by
  intro other
  have hother := hkept other
  obtain ⟨tid, cmd, prog, rfl, hidle, hstart, hcode⟩ | ⟨tid, choice, action, next, result, rfl,
    hcode, hexec, hcode'⟩ := System.next_cases hnext
  · have hheld : locks.held config'.shared other = locks.held config.shared other := by
      rw [held, held, locks.launched hstart]
    rw [hheld, hcode]
    by_cases heq : other = tid
    · subst heq
      rw [hidle, Typestate.keeps_ret] at hother
      rw [Function.update_self, hother]
      exact hlaunch _ _ _ _ _ hstart
    · rwa [Function.update_of_ne heq]
  · obtain ⟨hself, hothers⟩ := locks.held_exec hexec
    rw [hcode']
    by_cases heq : other = tid
    · subst heq
      rw [hcode] at hother
      rw [Function.update_self, hself]
      exact hother.2 result
    · rwa [Function.update_of_ne heq, hothers other heq]

/-- **No circular wait.** From every thread that waits for nothing but locks, the chain of those who
hold what the one before is about to take leads to a thread that can go on. -/
theorem Kept.mover (hkept : locks.Kept config) {tid : Tid} {action : Act}
    {next : Res action → Prog Act Res Unit} (hcode : config.code tid = .act action next)
    (hwaits : locks.use action ≠ .waits) :
    ∃ mover choice config', Relation.ReflTransGen (locks.WaitsFor config) tid mover ∧
      sys.next config (.step mover choice) = some config' := by
  -- the ranks of the locks rise along the chain
  obtain ⟨limit, hlimit⟩ : ∃ limit, ∀ lock, locks.use action = .take lock →
      locks.highest < locks.rank lock + limit := ⟨locks.highest + 1, fun _ _ => by omega⟩
  induction limit using Nat.strong_induction_on generalizing tid action next with
  | h limit ih =>
    have hkeeps := hkept tid
    rw [hcode] at hkeeps
    by_cases hblocked : ∃ lock holder, locks.use action = .take lock ∧
        locks.owner config.shared lock = some holder
    · obtain ⟨lock, holder, htake, hholder⟩ := hblocked
      have hrank := locks.rank_le lock
      have hbelow := hlimit lock htake
      have hordered := hkept holder
      cases hcode' : config.code holder with
      | ret value =>
        rw [hcode', Typestate.keeps_ret] at hordered
        exact absurd hholder (Set.eq_empty_iff_forall_notMem.mp hordered lock)
      | act action' next' =>
        rw [hcode'] at hordered
        have hallowed := hordered.1
        simp only [order, lockOrder] at hallowed
        have hwaits' : locks.use action' ≠ .waits := by
          intro hwaits'
          rw [hwaits'] at hallowed
          exact Set.eq_empty_iff_forall_notMem.mp hallowed lock hholder
        obtain ⟨mover, choice, config', hchain, hnext⟩ :=
          ih (limit - 1) (by omega) hcode' hwaits' fun higher htake' => by
            rw [htake'] at hallowed
            have hrises : locks.rank lock < locks.rank higher := hallowed lock hholder
            omega
        exact ⟨mover, choice, config', .head ⟨action, next, lock, hcode, htake, hholder⟩ hchain,
          hnext⟩
    · have htakes : ∀ lock, locks.use action = .take lock →
          locks.owner config.shared lock = none := by
        intro lock htake
        refine Option.eq_none_iff_forall_ne_some.mpr fun holder howner => ?_
        exact hblocked ⟨lock, holder, htake, howner⟩
      have hgives : ∀ lock, locks.use action = .give lock →
          locks.owner config.shared lock = some tid := by
        intro lock hgive
        have hallowed := hkeeps.1
        simp only [order, lockOrder, hgive] at hallowed
        exact hallowed
      obtain ⟨choice, result, s', hexec⟩ := locks.enabled hwaits htakes hgives
      exact ⟨tid, choice, ⟨s', Function.update config.code tid (next result)⟩, .refl,
        by simp only [System.next, hcode, hexec, Option.map_some]⟩

end Locks

end Interleaving
