import DatasetCache.Proofs.Cache.Conservation

/-!
# What a new context starts with

A new context is idle, so nobody is called when it is filled, whoever the participants
are: it has the members of the cache, each instance once, in the order of the members.  The
context that was open before has been ended by then.
-/

namespace DatasetCache

open Act Context

variable {ε : Type}

namespace Context

variable (services : Services (Act ε)) {c : ContextId} {w : World ε}

def seat (context : Context) (p : Participant) : Context :=
  { context with participants := Participant.addTo context.participants p }

theorem enrol_unused (inside : c < w.contexts.length) (living : (w.context c).isClosed = false)
    (unused : (w.context c).current = none) (p : Participant) :
    let enrolled := (enrol services c p w).2
    enrolled.contexts.length = w.contexts.length ∧
      enrolled.context c = (w.context c).seat p := by
  rw [enrol_eq, bind_apply, read, living, if_neg (by simp)]
  by_cases present : (w.context c).has p = true
  · have stays : (w.context c).seat p = w.context c := by
      rw [seat, Participant.addTo, if_pos (show Participant.isIn _ _ = true from present)]
    rw [if_pos present, stays]
    exact ⟨rfl, rfl⟩
  · have joins : (w.context c).seat p = accept p (w.context c) := by
      rw [seat, Participant.addTo, if_neg (show ¬ Participant.isIn _ _ = true from present)]
      rfl
    rw [if_neg present, bind_apply, joins]
    dsimp only
    rw [unused]
    exact ⟨World.length_update, World.context_update_self inside⟩

end Context

namespace Cache

section Seeds

variable (services : Services (Act ε))

theorem enrolAll_unused {c : ContextId} {w : World ε} (inside : c < w.contexts.length)
    (living : (w.context c).isClosed = false) (unused : (w.context c).current = none)
    (ps : List Participant) :
    (enrolAll services c ps w).2.context c = ps.foldl seat (w.context c) := by
  induction ps generalizing w with
  | nil => rfl
  | cons p rest ih =>
      obtain ⟨length, place⟩ := enrol_unused services inside living unused p
      have others := @ih (enrol services c p w).2 (by rw [length]; exact inside)
        (by rw [place]; exact living) (by rw [place]; exact unused)
      rw [place] at others
      exact others

theorem foldl_seat (context : Context) (ps : List Participant) :
    ps.foldl seat context =
      { context with participants := ps.foldl Participant.addTo context.participants } := by
  induction ps generalizing context with
  | nil => rfl
  | cons p rest ih => exact ih (context.seat p)

theorem openWith_seeds (cache : Cache) (w : World ε) :
    (cache.openWith services w).2.context w.contexts.length =
      { coordinator := cache.coordinator
        participants := cache.members.foldl Participant.addTo [] } := by
  have live := create_live cache.coordinator w
  have born := World.context_create_self (w := w) (k := cache.coordinator)
  have seeds := enrolAll_unused services live.inside live.living
    (by rw [born]) cache.members
  rw [born, foldl_seat] at seeds
  exact seeds

end Seeds

def vacated (services : Services (Act ε)) (cache : Cache) : Act ε Cache :=
  match cache.context with
  | some c => cache.endContext services c
  | none => pure cache

theorem openContext_vacated (services : Services (Act ε)) (cache : Cache) :
    cache.openContext services =
      if cache.closed then return (.error closedFault, cache)
      else (do (← cache.vacated services).openFresh services) := by
  rw [openContext_eq]
  split
  · rfl
  · unfold vacated
    cases cache.context <;> rfl

/-- What an opening leads to: the old context is ended, and the new one is filled with the
members that are left. -/
structure Opens (services : Services (Act (Journal (Ledger ε)))) (cache : Cache)
    (w : World (Journal (Ledger ε))) (c : ContextId) (next : Cache)
    (w' : World (Journal (Ledger ε))) : Prop where
  living : cache.closed = false
  next : next = { (cache.vacated services w).1 with context := some c }
  context : w'.context c =
    { coordinator := (cache.vacated services w).1.coordinator
      participants := (cache.vacated services w).1.members.foldl Participant.addTo [] }
  calm : Calm (cache.vacated services w).2 w'

section Opens

variable {services : Services (Act (Journal (Ledger ε)))} {cache next : Cache}
  {w w' : World (Journal (Ledger ε))} {c : ContextId}

theorem openContext_opens (accounts : services.Accountable)
    (opened : cache.openContext services w = ((.ok c, next), w')) :
    Opens services cache w c next w' := by
  rw [openContext_vacated] at opened
  cases living : cache.closed with
  | true =>
      rw [living] at opened
      cases opened
  | false =>
      rw [living, if_neg (by simp), bind_apply] at opened
      generalize settled : cache.vacated services w = vacant at opened
      obtain ⟨cache', w''⟩ := vacant
      have seeds := openWith_seeds services cache' w''
      have calm := openWith_calm accounts cache' w''
      have logged := accounts.report (cache'.openWith services w'').2
        ⟨.debug, .transactions, "Opened transaction context"⟩
      cases opened
      refine ⟨living, ?_, ?_, ?_⟩ <;> rw [settled]
      · exact (logged.adds.context w''.contexts.length).trans seeds
      · exact logged.calm.trans calm

theorem Opens.participants (opens : Opens services cache w c next w') :
    (w'.context c).participants = next.members.foldl Participant.addTo [] := by
  rw [opens.context, opens.next]
  rfl

theorem Opens.participants_perm (opens : Opens services cache w c next w') :
    (next.participants.map (·.id)).Perm ((w'.context c).participants.map (·.id)) := by
  rw [opens.participants, opens.next]
  refine Participant.foldl_addTo_perm fun i => ?_
  simp only [members, Participant.isIn_append]
  ac_rfl

end Opens

end Cache

end DatasetCache
