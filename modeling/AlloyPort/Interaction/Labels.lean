import AlloyPort.Interaction.Delivery

/-! The id of an event names its run and its number, so that an event under a new key enters its run. -/

namespace AlloyPort.Interaction

open Database Transaction Events

section ids

theorem length_zeroPadded {value : Nat} (h : value < 10 ^ 20) : (zeroPadded 20 value).toList.length = 20 := by
  have hdigits : value.repr.length ≤ 20 := (Nat.length_repr_le_iff (by decide)).mpr h
  rw [zeroPadded, String.toList_ofList, List.length_append, List.length_replicate, String.length_toList]
  omega

theorem zeroPadded_inj {width a b : Nat} (h : zeroPadded width a = zeroPadded width b) : a = b := by
  have hvalue : ∀ value, Nat.ofDigitChars 10 (zeroPadded width value).toList 0 = value := by
    intro value
    rw [zeroPadded, String.toList_ofList, Nat.ofDigitChars_append, Nat.ofDigitChars_replicate_zero, Nat.mul_zero,
      Nat.toList_repr, Nat.ofDigitChars_ten_toDigits]
  rw [← hvalue a, h, hvalue b]

theorem eventId_inj {runId runId' : String} {sequence sequence' : Nat} (hlt : sequence < 10 ^ 20)
    (hlt' : sequence' < 10 ^ 20)
    (h : eventId runId sequence = eventId runId' sequence') : runId = runId' ∧ sequence = sequence' := by
  have hchars := congrArg String.toList h
  simp only [eventId, String.toList_append] at hchars
  have hlength : (zeroPadded 20 sequence).toList.length = (zeroPadded 20 sequence').toList.length := by
    rw [length_zeroPadded hlt, length_zeroPadded hlt']
  obtain ⟨hfront, hback⟩ := List.append_inj' hchars hlength
  obtain ⟨hrun, -⟩ := List.append_inj' hfront rfl
  exact ⟨String.toList_inj.mp hrun, zeroPadded_inj (String.toList_inj.mp hback)⟩

end ids

def Identified (database : InteractionDatabase) : Prop :=
  ∀ row ∈ database.events.rows, row.eventId = eventId row.runId row.sequence

variable {database database' : InteractionDatabase} {call : InteractionCall} {result : OutputAppend} {dedupKey : String}
  {frame : ProducerEvent} {runId : String}

theorem Served.rows (h : Served database call result database') :
    database'.events.rows = database.events.rows ∨ ∃ sequence,
      database'.events.rows = database.events.rows ++ [eventRow call.dedupKey call.frame sequence] := by
  have happended : ∀ {dedupKey frame outcome database'}, Appended database dedupKey frame outcome database' →
      database'.events.rows = database.events.rows ∨ ∃ sequence,
        database'.events.rows = database.events.rows ++ [eventRow dedupKey frame sequence] := by
    intro dedupKey frame outcome database' h
    cases h with
    | known => exact .inl rfl
    | fresh sequence hnext hlt hnew hkey => exact .inr ⟨sequence, Table.insertOrIgnore_absent hnew⟩
  cases h with
  | event h => exact happended h
  | repeated => exact .inl rfl
  | @chunk dedupKey frame outcome database₁ attemptId stream byteOffset payload hnone hend h =>
    have hrows : database₁.events.rows = _ ∨ _ := happended h
    exact hrows

theorem Identified.served (hl : Identified database) (h : Served database call result database') :
    Identified database' := by
  rcases h.rows with hrows | ⟨sequence, hrows⟩
  · intro row hrow
    rw [hrows] at hrow
    exact hl row hrow
  · intro row hrow
    rw [hrows, List.mem_append, List.mem_singleton] at hrow
    rcases hrow with hrow | rfl
    · exact hl row hrow
    · rfl

theorem storedEvents_same (hrows : database'.events.rows = database.events.rows) :
    storedEvents database' runId = storedEvents database runId := by
  rw [storedEvents, storedEvents, rowsOf, rowsOf, hrows]

theorem storedEvents_added {sequence : Nat}
    (hrows : database'.events.rows = database.events.rows ++ [eventRow dedupKey frame sequence]) :
    storedEvents database' runId =
      storedEvents database runId ++ if frame.runId = runId then [envelopeAt frame sequence] else [] := by
  rw [storedEvents, storedEvents, rowsOf, rowsOf, hrows, List.filter_append, List.map_append]
  have hrun : (eventRow dedupKey frame sequence).runId = frame.runId := rfl
  by_cases hid : frame.runId = runId
  · simp only [List.filter_cons, List.filter_nil, hrun, hid, decide_true, if_true]
    rfl
  · simp only [List.filter_cons, List.filter_nil, hrun, hid, decide_false, Bool.false_eq_true, if_false, List.map_nil]

theorem Sound.place_le (hs : Sound database) {row : EventRow} (hrow : row ∈ database.events.rows) :
    row.sequence ≤ (storedEvents database row.runId).length := by
  have hmem : row.sequence ∈ (rowsOf database row.runId).map EventRow.sequence :=
    List.mem_map_of_mem (List.mem_filter.mpr ⟨hrow, decide_eq_true rfl⟩)
  have hcount : (rowsOf database row.runId).length = (storedEvents database row.runId).length :=
    (List.length_map _).symm
  rw [hs.numbered, List.mem_range'_1, hcount] at hmem
  omega

theorem Sound.next_unused (hs : Sound database) (runId : String) :
    database.events.find (runId, (storedEvents database runId).length + 1) = none := by
  refine Table.find_eq_none.mpr fun row hrow hkey => ?_
  obtain ⟨hid, hsequence⟩ := Prod.mk.inj hkey
  have hle := hs.place_le hrow
  rw [hid] at hle
  omega

theorem append_fresh (hs : Sound database) (hl : Identified database) (hvalid : validateInput dedupKey frame = .ok ())
    (hkey : ∀ row ∈ database.events.rows, row.runId = frame.runId → row.dedupKey ≠ dedupKey)
    (hroom : (storedEvents database frame.runId).length + 2 < 2 ^ 63) :
    (InteractionCall.append dedupKey frame).execute database =
      (database.entered dedupKey frame ((storedEvents database frame.runId).length + 1),
        .ok ⟨.inserted (envelopeAt frame ((storedEvents database frame.runId).length + 1)), 0⟩) := by
  obtain ⟨run, hrun, hnext⟩ := hs.next frame.runId
  have hcount : (rowsOf database frame.runId).length = (storedEvents database frame.runId).length :=
    (List.length_map _).symm
  rw [hcount] at hnext
  have hfree : ¬ (database.events.rows.any fun other =>
      other.key = (frame.runId, (storedEvents database frame.runId).length + 1) ∨
        other.eventId = eventId frame.runId ((storedEvents database frame.runId).length + 1) ∨
        other.runId = frame.runId ∧ other.dedupKey = dedupKey) = true := by
    rw [List.any_eq_true]
    rintro ⟨row, hrow, hclash⟩
    rcases of_decide_eq_true hclash with hsame | hsame | ⟨hid, hsame⟩
    · exact Table.find_eq_none.mp (hs.next_unused frame.runId) row hrow hsame
    · have hlt := (hs.labelled row hrow).1
      rw [hl row hrow] at hsame
      obtain ⟨hid, hsequence⟩ := eventId_inj (by omega) (by omega) hsame
      have hle := hs.place_le hrow
      rw [hid] at hle
      omega
    · exact hkey row hrow hid hsame
  have hsum : saturatingAdd ((storedEvents database frame.runId).length + 1) 1 =
    (storedEvents database frame.runId).length + 2 := by
    unfold saturatingAdd
    omega
  have hstored : toI64 ((storedEvents database frame.runId).length + 1) =
    .ok ((storedEvents database frame.runId).length + 1) :=
    if_pos (by omega)
  have hafter : toI64 ((storedEvents database frame.runId).length + 2) =
    .ok ((storedEvents database frame.runId).length + 2) :=
    if_pos hroom
  apply Transaction.run_eq
  simp only [InteractionCall.transaction, SqliteInteractionStore.append, appendTransaction, insertEvent, wp_bind,
    wp_attempt, hvalid, wp_read, eventByKey_none.mpr hkey, wp_write, wp_pure]
  refine ⟨fun _ _ => ?_, fun _ h => (by cases h)⟩
  refine wp_nextSequence hrun ⟨fun stored hok => ?_, fun _ herror => ?_⟩
  · rw [hnext, hstored] at hok
    cases hok
    rw [hnext, if_neg (by exact hfree), wp_write, hsum, hafter]
    exact ⟨fun next hsome => by cases hsome; exact ⟨rfl, rfl⟩, fun _ herror => by cases herror⟩
  · rw [hnext, hstored] at herror
    cases herror

theorem append_fresh_rows (hs : Sound database) (hl : Identified database)
    (hvalid : validateInput dedupKey frame = .ok ())
    (hkey : ∀ row ∈ database.events.rows, row.runId = frame.runId → row.dedupKey ≠ dedupKey)
    (hroom : (storedEvents database frame.runId).length + 2 < 2 ^ 63) :
    ((InteractionCall.append dedupKey frame).execute database).1.events.rows =
      database.events.rows ++ [eventRow dedupKey frame ((storedEvents database frame.runId).length + 1)] := by
  rw [append_fresh hs hl hvalid hkey hroom]
  exact Table.insertOrIgnore_absent (hs.next_unused frame.runId)

end AlloyPort.Interaction
