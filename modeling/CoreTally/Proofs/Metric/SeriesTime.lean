import CoreTally.Proofs.Metric.SingleSeries

/-
  Instants within one series: which entries are permanent,
  how they are stamped, and what the last one contributes to
  the accounts of an instant.

  Key definitions include:
    * `Series.Retentive`
    * `Series.Ascending`
    * `Series.Within`
    * `Series.Current`
    * `Series.share`
    * `Series.amount`
    * `Series.magnitudeAt`

  Key theorems include:
    * `Series.at?_eq_liveAt?`
    * `Series.amount_eq_shares`
    * `Series.natAbs_shares_le`
-/

namespace CoreTally

namespace Series

------------------------------------------------------------
-- Invariants
------------------------------------------------------------

/- All entries are permanent, except possibly the last one. -/
def Retentive (series : Series) : Prop :=
  series.entries.Pairwise fun earlier _ =>
    earlier.permanent = true

/- Later entries have later instants. -/
def Ascending (series : Series) : Prop :=
  series.entries.Pairwise fun earlier later =>
    earlier.instant < later.instant

/- No entry is stamped after an instant. -/
def Within
    (latest : Instant)
    (series : Series) : Prop :=
  ∀ entry ∈ series.entries, entry.instant ≤ latest

/- Temporary entries are stamped with an instant. -/
def Current
    (latest : Instant)
    (series : Series) : Prop :=
  ∀ entry ∈ series.entries,
    entry.permanent = false → entry.instant = latest

/- Ascending instants occur once. -/
theorem Ascending.length_filter_le_one
    {series : Series}
    (hAscending : series.Ascending)
    (instant : Instant) :
    (series.entries.filter (·.instant == instant)).length ≤ 1 := by
  have hKept :
      (series.entries.filter (·.instant == instant)).Pairwise
        (·.instant < ·.instant) :=
    hAscending.filter _
  have hSame :
      ∀ entry ∈
          series.entries.filter (·.instant == instant),
        entry.instant = instant := by
    intro entry hEntry
    exact beq_iff_eq.mp (List.mem_filter.mp hEntry).2
  generalize series.entries.filter (·.instant == instant) =
    entries at hKept hSame ⊢
  match entries with
  | [] => exact Nat.zero_le _
  | [_] => exact Nat.le_refl _
  | first :: second :: rest =>
      have hLess : first.instant < second.instant :=
        (List.pairwise_cons.mp hKept).1 second (by simp)
      rw [hSame first (by simp), hSame second (by simp)] at hLess
      exact absurd hLess (UInt64.lt_irrefl _)

------------------------------------------------------------
-- Purging
------------------------------------------------------------

/- A purge only leaves entries out. -/
theorem purge_sublist
    (series : Series) :
    series.purge.entries.Sublist series.entries := by
  cases series.ending with
  | empty unit => exact List.Sublist.refl _
  | permanent unit init last h =>
      simp [purge_of_permanent _ _ _ h]
  | temporary unit init last h =>
      simp [purge_of_temporary _ _ _ h]

/- A purge leaves permanent entries only. -/
theorem permanent_of_mem_purge
    {series : Series}
    (hRetentive : series.Retentive)
    {entry : Entry}
    (hEntry : entry ∈ series.purge.entries) :
    entry.permanent = true := by
  cases series.ending with
  | empty unit => simp at hEntry
  | permanent unit init last h =>
      rw [purge_of_permanent _ _ _ h] at hEntry
      rcases List.mem_append.mp hEntry with hInit | hLast
      · exact (List.pairwise_append.mp hRetentive).2.2
          entry hInit last (by simp)
      · rwa [List.mem_singleton.mp hLast]
  | temporary unit init last h =>
      rw [purge_of_temporary _ _ _ h] at hEntry
      exact (List.pairwise_append.mp hRetentive).2.2
        entry hEntry last (by simp)

/- What a purge leaves are exactly the permanent entries. -/
theorem entries_purge
    {series : Series}
    (hRetentive : series.Retentive) :
    series.purge.entries = series.permanents := by
  rw [← permanents_purge, permanents, List.filter_eq_self.mpr]
  intro entry hEntry
  exact permanent_of_mem_purge hRetentive hEntry

/- A purge leaves permanent entries alone. -/
theorem purge_of_entries_permanent
    {series : Series}
    (hPermanent :
      ∀ entry ∈ series.entries, entry.permanent = true) :
    series.purge = series := by
  cases series.ending with
  | empty unit => rfl
  | permanent unit init last h => exact purge_of_permanent _ _ _ h
  | temporary unit init last h =>
      have hLast := hPermanent last (by simp)
      rw [h] at hLast
      contradiction

theorem Retentive.purge
    {series : Series}
    (hRetentive : series.Retentive) :
    series.purge.Retentive :=
  List.Pairwise.sublist series.purge_sublist hRetentive

theorem Ascending.purge
    {series : Series}
    (hAscending : series.Ascending) :
    series.purge.Ascending :=
  List.Pairwise.sublist series.purge_sublist hAscending

theorem Within.purge
    {latest : Instant}
    {series : Series}
    (hWithin : series.Within latest) :
    series.purge.Within latest := by
  intro entry hEntry
  exact hWithin entry (series.purge_sublist.subset hEntry)

theorem current_purge
    (latest : Instant)
    {series : Series}
    (hRetentive : series.Retentive) :
    series.purge.Current latest := by
  intro entry hEntry hTemporary
  have hPermanent := permanent_of_mem_purge hRetentive hEntry
  rw [hTemporary] at hPermanent
  contradiction

------------------------------------------------------------
-- Pushing
------------------------------------------------------------

/- An entry may follow what a purge leaves. -/
theorem Retentive.purge_push
    {series : Series}
    (hRetentive : series.Retentive)
    (entry : Entry) :
    (series.purge.push entry).Retentive := by
  apply List.pairwise_append.mpr
  refine ⟨hRetentive.purge, List.pairwise_singleton _ _, ?_⟩
  intro earlier hEarlier _ _
  exact permanent_of_mem_purge hRetentive hEarlier

/- A later entry may follow what a purge leaves. -/
theorem Ascending.purge_push
    {latest : Instant}
    {series : Series}
    (hAscending : series.Ascending)
    (hWithin : series.Within latest)
    (entry : Entry)
    (hLater : latest < entry.instant) :
    (series.purge.push entry).Ascending := by
  apply List.pairwise_append.mpr
  refine ⟨hAscending.purge, List.pairwise_singleton _ _, ?_⟩
  intro earlier hEarlier later hLast
  rw [List.mem_singleton.mp hLast]
  exact UInt64.lt_of_le_of_lt
    (hWithin.purge earlier hEarlier) hLater

theorem Within.purge_push
    {latest : Instant}
    {series : Series}
    (hWithin : series.Within latest)
    (entry : Entry)
    (hLater : latest ≤ entry.instant) :
    (series.purge.push entry).Within entry.instant := by
  intro other hOther
  rcases List.mem_append.mp hOther with hOld | hNew
  · exact UInt64.le_trans (hWithin.purge other hOld) hLater
  · rw [List.mem_singleton.mp hNew]
    exact UInt64.le_refl _

theorem current_purge_push
    {series : Series}
    (hRetentive : series.Retentive)
    (entry : Entry) :
    (series.purge.push entry).Current entry.instant := by
  intro other hOther hTemporary
  rcases List.mem_append.mp hOther with hOld | hNew
  · exact current_purge _ hRetentive other hOld hTemporary
  · rw [List.mem_singleton.mp hNew]

------------------------------------------------------------
-- Carrying
------------------------------------------------------------

/-
  Carrying forward leaves a series alone, or stamps its
  temporary last entry anew.
-/
theorem carry_cases
    (previous next : Instant)
    (series : Series) :
    series.carry previous next = series ∨
      ∃ last, series.last? = some last ∧
        last.permanent = false ∧
        last.instant = previous ∧
        series.carry previous next =
          series.purge.push { last with instant := next } := by
  cases series.ending with
  | empty unit => exact .inl rfl
  | permanent unit init last h =>
      exact .inl (carry_of_permanent _ _ _ _ _ h)
  | temporary unit init last h =>
      rw [carry_of_temporary _ _ _ _ _ h]
      by_cases hLive : last.instant = previous
      · refine .inr ⟨last, last?_concat _ _ _, h, hLive, ?_⟩
        rw [if_pos hLive, purge_of_temporary _ _ _ h]
        rfl
      · exact .inl (if_neg hLive)

/- Permanent entries are not carried forward. -/
theorem carry_of_entries_permanent
    (previous next : Instant)
    {series : Series}
    (hPermanent :
      ∀ entry ∈ series.entries, entry.permanent = true) :
    series.carry previous next = series := by
  rcases series.carry_cases previous next with
    hSame | ⟨last, hLast, hTemporary, _, _⟩
  · exact hSame
  · rw [hPermanent last (List.mem_of_getLast? hLast)] at hTemporary
    contradiction

theorem Retentive.carry
    {series : Series}
    (hRetentive : series.Retentive)
    (previous next : Instant) :
    (series.carry previous next).Retentive := by
  rcases series.carry_cases previous next with
    hSame | ⟨last, _, _, _, hPush⟩
  · rwa [hSame]
  · rw [hPush]
    exact hRetentive.purge_push _

theorem Ascending.carry
    {previous next : Instant}
    {series : Series}
    (hAscending : series.Ascending)
    (hWithin : series.Within previous)
    (hLater : previous < next) :
    (series.carry previous next).Ascending := by
  rcases series.carry_cases previous next with
    hSame | ⟨last, _, _, _, hPush⟩
  · rwa [hSame]
  · rw [hPush]
    exact hAscending.purge_push hWithin _ hLater

theorem Within.carry
    {bound next : Instant}
    {series : Series}
    (hWithin : series.Within bound)
    (previous : Instant)
    (hLater : bound ≤ next) :
    (series.carry previous next).Within next := by
  rcases series.carry_cases previous next with
    hSame | ⟨last, _, _, _, hPush⟩
  · rw [hSame]
    intro entry hEntry
    exact UInt64.le_trans (hWithin entry hEntry) hLater
  · rw [hPush]
    exact hWithin.purge_push { last with instant := next } hLater

/- Carrying forward keeps temporary entries current. -/
theorem Current.carry
    {previous : Instant}
    {series : Series}
    (hCurrent : series.Current previous)
    (hRetentive : series.Retentive)
    (next : Instant) :
    (series.carry previous next).Current next := by
  cases series.ending with
  | empty unit => simp [Current]
  | permanent unit init last h =>
      rw [carry_of_permanent _ _ _ _ _ h,
        ← purge_of_permanent _ _ _ h]
      exact current_purge next hRetentive
  | temporary unit init last h =>
      rw [carry_of_temporary _ _ _ _ _ h,
        if_pos (hCurrent last (by simp) h)]
      have hPush := current_purge_push hRetentive
        { last with instant := next }
      rwa [purge_of_temporary _ _ _ h] at hPush

------------------------------------------------------------
-- Shares
------------------------------------------------------------

/-
  What a last entry that is permanent, or temporary, holds at
  an instant.
-/
def share
    (permanent : Bool)
    (instant : Instant)
    (series : Series) : Int :=
  match series.liveAt? instant with
  | none => 0
  | some last =>
      if last.permanent = permanent then last.value.toInt else 0

/- What a series adds to the total of an instant. -/
def amount
    (instant : Instant)
    (series : Series) : Int :=
  match series.at? instant with
  | none => 0
  | some entry => entry.value.toInt

/- The magnitude of all entries stamped with an instant. -/
def magnitudeAt
    (instant : Instant)
    (series : Series) : Nat :=
  Count.magnitude
    ((series.entries.filter (·.instant == instant)).map Entry.value)

@[simp] theorem share_nil
    (permanent : Bool)
    (instant : Instant)
    (unit : UnitId) :
    share permanent instant ⟨unit, []⟩ = 0 := rfl

@[simp] theorem amount_nil
    (instant : Instant)
    (unit : UnitId) :
    amount instant ⟨unit, []⟩ = 0 := rfl

theorem share_concat
    (permanent : Bool)
    (instant : Instant)
    (unit : UnitId)
    (init : List Entry)
    (last : Entry) :
    share permanent instant ⟨unit, init ++ [last]⟩ =
      if last.instant = instant ∧ last.permanent = permanent then
        last.value.toInt
      else
        0 := by
  rw [share, liveAt?_concat]
  by_cases hLive : last.instant = instant <;> simp [hLive]

theorem share_push
    (permanent : Bool)
    (instant : Instant)
    (series : Series)
    (entry : Entry) :
    share permanent instant (series.push entry) =
      if entry.instant = instant ∧ entry.permanent = permanent then
        entry.value.toInt
      else
        0 :=
  share_concat permanent instant series.unit series.entries entry

/- The most recent entry of an instant is looked for at the end. -/
theorem at?_concat
    (instant : Instant)
    (unit : UnitId)
    (init : List Entry)
    (last : Entry) :
    at? ⟨unit, init ++ [last]⟩ instant =
      if last.instant = instant then
        some last
      else
        at? ⟨unit, init⟩ instant := by
  rw [at?, at?, List.reverse_append, List.reverse_singleton,
    List.singleton_append]
  by_cases hLive : last.instant = instant
  · rw [if_pos hLive]
    exact List.find?_cons_of_pos (by simpa using hLive)
  · rw [if_neg hLive]
    exact List.find?_cons_of_neg (by simpa using hLive)

/-
  In a series with ascending instants only the last entry can
  be stamped with the latest one.
-/
theorem at?_eq_liveAt?
    {latest : Instant}
    {series : Series}
    (hAscending : series.Ascending)
    (hWithin : series.Within latest) :
    series.at? latest = series.liveAt? latest := by
  rcases series with ⟨unit, entries⟩
  rcases List.eq_nil_or_concat entries with
    rfl | ⟨init, last, rfl⟩
  · rfl
  · rw [List.concat_eq_append] at hAscending hWithin ⊢
    rw [at?_concat, liveAt?_concat]
    have hLast : last.instant ≤ latest :=
      hWithin last (by simp)
    have hEarlier : at? ⟨unit, init⟩ latest = none := by
      rw [at?, List.find?_eq_none]
      intro entry hEntry
      have hBefore : entry.instant < last.instant :=
        (List.pairwise_append.mp hAscending).2.2
          entry (List.mem_reverse.mp hEntry) last (by simp)
      have hPast : entry.instant ≠ latest :=
        UInt64.ne_of_lt (UInt64.lt_of_lt_of_le hBefore hLast)
      simpa using hPast
    rw [hEarlier]

/- The amount of the latest instant is held by the last entry. -/
theorem amount_eq_shares
    {latest : Instant}
    {series : Series}
    (hAscending : series.Ascending)
    (hWithin : series.Within latest) :
    series.amount latest =
      series.share true latest + series.share false latest := by
  rw [amount, at?_eq_liveAt? hAscending hWithin, share, share]
  cases series.liveAt? latest with
  | none => rfl
  | some last => cases h : last.permanent <;> simp [h]

/-
  What a reading that counts on takes over is what the series
  holds, as long as its temporary entries are current.
-/
theorem toInt_carried
    {previous : Instant}
    {series : Series}
    (hCurrent : series.Current previous) :
    (series.carried previous).toInt =
      series.share true previous +
        series.share false previous := by
  cases series.ending with
  | empty unit => rfl
  | permanent unit init last h =>
      rw [share_concat, share_concat, carried, last?_concat]
      by_cases hLive : last.instant = previous <;>
        simp [h, hLive]
  | temporary unit init last h =>
      have hLive := hCurrent last (by simp) h
      rw [share_concat, share_concat, carried, last?_concat]
      simp [h, hLive]

/- Carrying forward keeps what temporary entries hold. -/
theorem share_carry_temporary
    {previous : Instant}
    {series : Series}
    (hCurrent : series.Current previous)
    (next : Instant) :
    share false next (series.carry previous next) =
      share false previous series := by
  cases series.ending with
  | empty unit => rfl
  | permanent unit init last h =>
      rw [carry_of_permanent _ _ _ _ _ h, share_concat,
        share_concat]
      simp [h]
  | temporary unit init last h =>
      have hLive := hCurrent last (by simp) h
      rw [carry_of_temporary _ _ _ _ _ h, if_pos hLive,
        share_concat, share_concat]
      simp [h, hLive]

/- Permanent entries are left behind at their instants. -/
theorem share_carry_permanent
    {previous next : Instant}
    {series : Series}
    (hWithin : series.Within previous)
    (hLater : previous < next) :
    share true next (series.carry previous next) = 0 := by
  cases series.ending with
  | empty unit => rfl
  | permanent unit init last h =>
      have hLast : last.instant ≤ previous :=
        hWithin last (by simp)
      have hPast : last.instant ≠ next :=
        UInt64.ne_of_lt (UInt64.lt_of_le_of_lt hLast hLater)
      rw [carry_of_permanent _ _ _ _ _ h, share_concat]
      simp [hPast]
  | temporary unit init last h =>
      rw [carry_of_temporary _ _ _ _ _ h]
      split <;> simp [share_concat, h]

/- Permanent entries hold nothing temporary. -/
theorem share_of_permanent
    (instant : Instant)
    {series : Series}
    (hPermanent :
      ∀ entry ∈ series.entries, entry.permanent = true) :
    share false instant series = 0 := by
  rw [share]
  cases hLive : series.liveAt? instant with
  | none => rfl
  | some last =>
      have hLast : series.last? = some last :=
        (Option.filter_eq_some_iff.mp hLive).1
      have hKept : last.permanent = true :=
        hPermanent last (List.mem_of_getLast? hLast)
      simp [hKept]

------------------------------------------------------------
-- Magnitudes
------------------------------------------------------------

@[simp] theorem magnitudeAt_nil
    (instant : Instant)
    (unit : UnitId) :
    magnitudeAt instant ⟨unit, []⟩ = 0 := rfl

/- What is held at an instant is part of its magnitude. -/
theorem natAbs_shares_le
    (instant : Instant)
    (series : Series) :
    (series.share true instant).natAbs +
        (series.share false instant).natAbs ≤
      series.magnitudeAt instant := by
  rw [share, share]
  cases hLive : series.liveAt? instant with
  | none => simp
  | some last =>
      rcases Option.filter_eq_some_iff.mp hLive with
        ⟨hLast, hInstant⟩
      have hListed :
          [last.value].Sublist
            ((series.entries.filter (·.instant == instant)).map
              Entry.value) := by
        apply List.singleton_sublist.mpr
        apply List.mem_map_of_mem
        exact List.mem_filter.mpr
          ⟨List.mem_of_getLast? hLast, hInstant⟩
      have hBound := Count.magnitude_le_of_sublist hListed
      rw [Count.magnitude_cons, Count.magnitude_nil] at hBound
      rw [magnitudeAt]
      cases h : last.permanent <;> simp [h] <;> omega

/- A purge adds nothing to a magnitude. -/
theorem magnitudeAt_purge_le
    (instant : Instant)
    (series : Series) :
    series.purge.magnitudeAt instant ≤
      series.magnitudeAt instant := by
  apply Count.magnitude_le_of_sublist
  exact (series.purge_sublist.filter _).map _

end Series

end CoreTally
