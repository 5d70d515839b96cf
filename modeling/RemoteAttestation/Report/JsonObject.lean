import RemoteAttestation.Report.JsonText

/-! # The entries of an object

An object is filled by assignments, one for each member. It keeps one entry a key, with the
value that was assigned last.
-/

namespace RemoteAttestation

namespace Json

variable {key : Bytes} {value : Json} {entries members : List (Bytes × Json)}

/-- The value of a key. -/
def entry (key : Bytes) (entries : List (Bytes × Json)) : Option Json :=
  (entries.find? fun entry => entry.1 == key).map Prod.snd

@[simp] theorem entry_nil (key : Bytes) : entry key [] = none := rfl

theorem entry_cons (key : Bytes) (head : Bytes × Json) (entries : List (Bytes × Json)) :
    entry key (head :: entries) = if head.1 = key then some head.2 else entry key entries := by
  unfold entry
  by_cases hkey : head.1 = key
  · rw [List.find?_cons_of_pos (by simp [hkey]), if_pos hkey]
    rfl
  · rw [List.find?_cons_of_neg (by simp [hkey]), if_neg hkey]

theorem index_object (key : Bytes) (entries : List (Bytes × Json)) :
    (object entries).index key = (entry key entries).getD .null := rfl

theorem hasKey_object (key : Bytes) (entries : List (Bytes × Json)) :
    (object entries).hasKey key = (entry key entries).isSome := by
  unfold hasKey
  dsimp only
  induction entries with
  | nil => rfl
  | cons head entries ih =>
      rw [List.any_cons, ih, entry_cons]
      by_cases hkey : head.1 = key
      · simp [hkey]
      · simp [hkey]

theorem entry_eq_none_iff : entry key entries = none ↔ key ∉ entries.map Prod.fst := by
  induction entries with
  | nil => simp
  | cons head entries ih =>
      rw [entry_cons, List.map_cons, List.mem_cons, not_or, ← ih]
      by_cases hkey : head.1 = key
      · simp [hkey]
      · simp [hkey, Ne.symm hkey]

/-! ## Assignment -/

/-- The entry of the key is replaced. -/
def replace (key : Bytes) (value : Json) (entry : Bytes × Json) : Bytes × Json :=
  if entry.1 == key then (key, value) else entry

theorem assign_eq (key : Bytes) (value : Json) (entries : List (Bytes × Json)) :
    assign key value entries =
      if (entry key entries).isSome then entries.map (replace key value)
      else entries ++ [(key, value)] := by
  rw [← hasKey_object]
  rfl

theorem fst_replace (key : Bytes) (value : Json) (entry : Bytes × Json) :
    (replace key value entry).1 = entry.1 := by
  unfold replace
  split
  next heq => exact (beq_iff_eq.mp heq).symm
  next => rfl

theorem entry_replaced (key other : Bytes) (value : Json) (entries : List (Bytes × Json)) :
    entry other (entries.map (replace key value)) =
      if key = other then (entry other entries).map fun _ => value else entry other entries := by
  induction entries with
  | nil => simp
  | cons head entries ih =>
      rw [List.map_cons, entry_cons, entry_cons, fst_replace, ih]
      by_cases hother : key = other
      · subst hother
        by_cases hhead : head.1 = key
        · simp [hhead, replace]
        · simp [hhead]
      · by_cases hhead : head.1 = other
        · have hkept : (replace key value head).2 = head.2 := by
            unfold replace
            rw [if_neg]
            simpa [hhead] using Ne.symm hother
          simp [hother, hhead, hkept]
        · simp [hother, hhead]

/-- An assignment changes what is found under its own key. -/
theorem entry_assign (key other : Bytes) (value : Json) (entries : List (Bytes × Json)) :
    entry other (assign key value entries) =
      if key = other then some value else entry other entries := by
  rw [assign_eq]
  split
  next hpresent =>
    rw [entry_replaced]
    by_cases hother : key = other
    · subst hother
      obtain ⟨old, hold⟩ := Option.isSome_iff_exists.mp hpresent
      simp [hold]
    · simp [hother]
  next habsent =>
    induction entries with
    | nil => rw [List.nil_append, entry_cons, entry_nil]
    | cons head entries ih =>
        rw [entry_cons] at habsent
        rw [List.cons_append, entry_cons, entry_cons]
        by_cases hhead : head.1 = key
        · simp [hhead] at habsent
        · rw [if_neg hhead] at habsent
          rw [ih habsent]
          by_cases hother : key = other
          · subst hother
            simp [hhead]
          · simp [hother]

/-- An assignment keeps the keys apart. -/
theorem keys_assign (key : Bytes) (value : Json) (entries : List (Bytes × Json)) :
    (assign key value entries).map Prod.fst =
      if key ∈ entries.map Prod.fst then entries.map Prod.fst
      else entries.map Prod.fst ++ [key] := by
  have hpresent : (entry key entries).isSome ↔ key ∈ entries.map Prod.fst := by
    rw [Option.isSome_iff_ne_none, ne_eq, entry_eq_none_iff, not_not]
  rw [assign_eq]
  by_cases hkey : key ∈ entries.map Prod.fst
  · rw [if_pos (hpresent.mpr hkey), if_pos hkey, List.map_map]
    exact List.map_congr_left fun entry _ => fst_replace key value entry
  · rw [if_neg (hpresent.not.mpr hkey), if_neg hkey, List.map_append]
    rfl

theorem nodup_assign (hnodup : (entries.map Prod.fst).Nodup) :
    ((assign key value entries).map Prod.fst).Nodup := by
  rw [keys_assign]
  split
  next => exact hnodup
  next hkey => exact hnodup.append (List.nodup_singleton key) (List.disjoint_singleton.mpr hkey)

/-! ## The members of an object -/

/-- The value of the last member of a key. -/
def lastValue (key : Bytes) (members : List (Bytes × Json)) : Option Json :=
  ((members.filter fun member => jsonEscape member.1 == key).getLast?).map Prod.snd

/-- An object holds the last value of each key. -/
theorem entry_collect (key : Bytes) (members entries : List (Bytes × Json)) :
    entry key (collect members entries) = (lastValue key members).or (entry key entries) := by
  induction members generalizing entries with
  | nil => rfl
  | cons member members ih =>
      have hstep : collect (member :: members) entries =
          collect members (assign (jsonEscape member.1) member.2 entries) := rfl
      rw [hstep, ih, entry_assign]
      unfold lastValue
      by_cases hkey : jsonEscape member.1 = key
      · rw [List.filter_cons_of_pos (by simp [hkey]), List.getLast?_cons, if_pos hkey]
        cases (members.filter fun member => jsonEscape member.1 == key).getLast? with
        | none => rfl
        | some last => rfl
      · rw [List.filter_cons_of_neg (by simp [hkey]), if_neg hkey]

theorem nodup_collect (hnodup : (entries.map Prod.fst).Nodup) :
    ((collect members entries).map Prod.fst).Nodup := by
  induction members generalizing entries with
  | nil => exact hnodup
  | cons member members ih => exact ih (nodup_assign hnodup)

end Json

end RemoteAttestation
