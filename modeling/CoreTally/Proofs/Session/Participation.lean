import CoreTally.Counter.Simulated
import CoreTally.Proofs.Metric.Representation
import CoreTally.Proofs.Session.Requests

/-
  Who takes part in a session. A ledger that is handed readings
  without values enlists units that have nothing to show. The
  calls of a session never do so, and the participants of a
  session are the units with a series.

  Key definitions include:
    * `Session.StoresFew`
    * `Session.Peopled`

  Key theorems include:
    * `Session.Peopled.of_effect`
    * `Session.peopled_slotAfter`
    * `Session.reference_counts_hold`
-/

namespace CoreTally

namespace Session

open Ledger (eventsOf)

------------------------------------------------------------
-- Peopled Sessions
------------------------------------------------------------

/-
  No session along the way stores more events than there are
  reference counts. This is so in particular if no more names
  of events than that ever occur.
-/
def StoresFew (turns : List Turn) : Prop :=
  ∀ done, done <+: turns →
    ∀ session, slotAfter done = some session →
      session.names.length < UInt32.size

theorem StoresFew.of_prefix
    {done turns : List Turn}
    (hFew : StoresFew turns)
    (hPrefix : done <+: turns) :
    StoresFew done := by
  intro first hFirst
  exact hFew first (hFirst.trans hPrefix)

/-
  Readings are stored soundly, and participants count their
  series, of which each has some.
-/
structure Peopled (session : Session) : Prop where
  sound : session.ledger.store.Sound
  referenced : session.ledger.Referenced
  attended : session.ledger.Attended

theorem peopled_fresh
    (handle : EventSet) :
    (fresh handle).Peopled where
  sound := Store.sound_empty
  referenced := Ledger.referenced_empty.congr rfl rfl
  attended := Ledger.attended_empty

variable {session : Session}

/- A pending reset does not show in the participants. -/
theorem Peopled.requestReset
    (hPeopled : session.Peopled)
    (handle : EventSet)
    (running : Bool) :
    Peopled
      { handle := handle
        running := running
        ledger := session.ledger.requestReset } where
  sound := hPeopled.sound
  referenced := hPeopled.referenced.congr rfl rfl
  attended := hPeopled.attended

theorem size_lt_of_names
    (hNames : session.names.length < UInt32.size) :
    session.ledger.store.size < UInt32.size := by
  simpa [names, Store.names, Store.size, OrderedMap.size,
    OrderedMap.keys] using hNames

/- Whatever a call does to a session, it is peopled as before. -/
theorem Peopled.of_effect
    {slot slot' : Option Session}
    {result : Except Error (Option Instant)}
    (hEffect : Effect slot result slot')
    (hFew :
      ∀ session, slot = some session →
        session.names.length < UInt32.size)
    (hBefore : ∀ session, slot = some session → session.Peopled)
    (hAfter : slot' = some session) :
    session.Peopled := by
  cases hEffect with
  | failed e slot => exact hBefore session hAfter
  | halted e old =>
      cases hAfter
      have hOld := hBefore old rfl
      exact ⟨hOld.sound, hOld.referenced, hOld.attended⟩
  | vacant => contradiction
  | created handle =>
      cases hAfter
      exact peopled_fresh handle
  | rebound old handle =>
      cases hAfter
      exact (hBefore old rfl).requestReset handle true
  | reset old =>
      cases hAfter
      exact (hBefore old rfl).requestReset _ _
  | stored old running now mode batch hInstant hReadings =>
      cases hAfter
      have hOld := hBefore old rfl
      have hSize := size_lt_of_names (hFew old rfl)
      exact
        ⟨Ledger.sound_apply hOld.sound _,
          hOld.referenced.apply hSize _,
          hOld.attended.apply hOld.referenced hSize hReadings⟩

/- Every session that calls lead to is peopled. -/
theorem peopled_slotAfter
    {turns : List Turn}
    (hFew : StoresFew turns)
    (hSession : slotAfter turns = some session) :
    session.Peopled := by
  induction turns using List.reverseRecOn generalizing session with
  | nil => contradiction
  | append_singleton turns turn ih =>
      -- The session before the last call is one that the bound on
      -- events covers, since it comes along the way.
      have hPrefix : turns <+: turns ++ [turn] :=
        List.prefix_append _ _
      rcases turn.effect_after (slotAfter turns) with
        ⟨result, hEffect⟩
      rw [slotAfter_concat] at hSession
      exact Peopled.of_effect hEffect (hFew turns hPrefix)
        (fun _ => ih (hFew.of_prefix hPrefix)) hSession

------------------------------------------------------------
-- Participants
------------------------------------------------------------

/- The participants of a session are the units with a series. -/
theorem Peopled.contains_iff
    (hPeopled : session.Peopled)
    (unit : UnitId) :
    session.ledger.participants.contains unit = true ↔
      ∃ event, (session.series? event unit).isSome = true := by
  constructor
  · intro hContains
    exact Store.seriesCount_pos_iff.mp
      (hPeopled.attended unit hContains)
  · intro hSeries
    exact hPeopled.referenced.enlisted unit
      (Store.seriesCount_pos_iff.mpr hSeries)

/- Every participant counts some series. -/
theorem Peopled.refs_pos
    (hPeopled : session.Peopled)
    (hFew : session.names.length < UInt32.size)
    {unit : UnitId}
    {refs : UInt32}
    (hRefs : session.refs? unit = some refs) :
    0 < refs := by
  rw [refs?, Option.map_eq_some_iff] at hRefs
  rcases hRefs with ⟨participant, hFound, rfl⟩
  have hContains :
      session.ledger.participants.contains unit = true := by
    simp [OrderedMap.contains, hFound]
  have hSeries := hPeopled.attended unit hContains
  rw [UInt32.lt_iff_toNat_lt,
    hPeopled.referenced.toNat_refs (size_lt_of_names hFew) hFound]
  exact hSeries

/-
  Along every history of not too many events, a ledger is
  regular, and its participants count their series. This holds
  in a session, where the participants are moreover the units
  with a series, so that none of them counts zero.
-/
theorem reference_counts_hold :
    (∀ history : List Ledger.Operation,
      (eventsOf history).toFinset.card < UInt32.size →
        (Ledger.empty.replay history).Regular) ∧
      ∀ turns, StoresFew turns →
        ∀ session, slotAfter turns = some session →
          session.ledger.Regular ∧
            ∀ unit,
              (session.ledger.participants.contains unit =
                    true ↔
                  ∃ event,
                    (session.series? event unit).isSome =
                      true) ∧
                ∀ refs, session.refs? unit = some refs →
                  0 < refs := by
  constructor
  · intro history hEvents
    exact Ledger.regular_replay hEvents
  · intro turns hFew session hSession
    have hPeopled := peopled_slotAfter hFew hSession
    have hNames := hFew turns List.prefix_rfl session hSession
    constructor
    · exact hPeopled.referenced.regular (size_lt_of_names hNames)
        hPeopled.sound
    · intro unit
      exact ⟨hPeopled.contains_iff unit,
        fun _ hRefs => hPeopled.refs_pos hNames hRefs⟩

/-
  Two units report the same event. The read of the second one
  purges what the first one accumulated.
-/
theorem reference_counts_hold_purging :
    let history : List Ledger.Operation :=
      [.store .accumulate ⟨0, 3, 5, [⟨"TOT_INS", 200⟩], false⟩,
        .store .read ⟨1, 5, 9, [⟨"TOT_INS", 40⟩], true⟩]
    let world (count : Count) (running : Bool) (unit : UnitId) :=
      Simulated.withDefaultEvents.putSet 1
        ⟨[⟨0x80000032, count⟩], running, .cpu unit⟩
    let source := Simulated.source (Resolver.resolve {} {})
    let site : Site := ⟨.uniform 1 2 1, 0⟩
    let turns : List Turn :=
      [⟨Simulated, source, world 0 false 0, .start 1⟩,
        ⟨Simulated, source, world 200 true 0,
          .observe .accumulate site 5 false⟩,
        ⟨Simulated, source, world 40 true 1,
          .observe .read site 9 true⟩]
    (Ledger.empty.replay history).Regular ∧
      ∃ session, slotAfter turns = some session ∧
        session.units = [1] ∧
        session.ledger.Regular ∧
        ∀ unit,
          (session.ledger.participants.contains unit = true ↔
              ∃ event,
                (session.series? event unit).isSome = true) ∧
            ∀ refs, session.refs? unit = some refs →
              0 < refs := by
  intro history world source site turns
  have hFew : StoresFew turns := by
    intro done hDone session hSession
    have hAll :
        turns.inits.all (fun done =>
            (slotAfter done).all fun session =>
              session.names.length < UInt32.size) =
          true := by
      decide +kernel
    have hStored :=
      List.all_eq_true.mp hAll done
        (List.mem_inits done turns |>.mpr hDone)
    rw [hSession] at hStored
    simpa using hStored
  exact
    ⟨reference_counts_hold.1 history (by decide), _, rfl,
      by decide +kernel,
      reference_counts_hold.2 turns hFew _ rfl⟩

end Session

end CoreTally
