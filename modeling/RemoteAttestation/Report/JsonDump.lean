import RemoteAttestation.Report.JsonObject
import RemoteAttestation.Report.JsonTermination
import RemoteAttestation.Report.RequestBody

/-! # Printing JSON values

`dump` runs through an object in the order of its keys. It escapes the text of a string, and
prints a key as it is: the parser escapes a key before it stores it. So what `JSON::Load` has
read is printed as a text that it reads as the same value.
-/

namespace RemoteAttestation

namespace Json

/-! ## The printer -/

/-- The entries of a map, in the order in which it is run through. -/
def inOrder {α : Type} (entries : List (Bytes × α)) : List (Bytes × α) :=
  entries.mergeSort fun left right => decide (left.1 ≤ right.1)

/-- `pad`, after the loop over the depth. -/
def padding (tab : Bytes) (depth : Nat) : Bytes := (List.replicate depth tab).flatten

mutual

/-- `dump`, with its own `tab`. `printf` prints a floating number. -/
def dump (printf : Bytes → Bytes → Bytes) (depth : Nat) : Json → Bytes
  | .null => ascii "null"
  | .object entries =>
      let pad := padding (ascii "  ") depth
      ascii "\x7b\n" ++
        (ascii ",\n").intercalate ((inOrder (dumpEntries printf (depth + 1) entries)).map
          fun p => pad ++ ascii "\"" ++ p.1 ++ ascii "\" : " ++ p.2) ++
        (ascii "\n" ++ pad.drop 2 ++ ascii "\x7d")
  | .array items =>
      ascii "[" ++ (ascii ", ").intercalate (dumpItems printf (depth + 1) items) ++ ascii "]"
  | .string text => ascii "\"" ++ jsonEscape text ++ ascii "\""
  | .floating mantissa exponent => printf mantissa exponent
  | .integral value =>
      if value < 0 then ascii "-" ++ decimal value.natAbs else decimal value.natAbs
  | .boolean value => if value then ascii "true" else ascii "false"

def dumpItems (printf : Bytes → Bytes → Bytes) (depth : Nat) : List Json → List Bytes
  | [] => []
  | item :: items => dump printf depth item :: dumpItems printf depth items

def dumpEntries (printf : Bytes → Bytes → Bytes) (depth : Nat) :
    List (Bytes × Json) → List (Bytes × Bytes)
  | [] => []
  | (key, value) :: entries => (key, dump printf depth value) :: dumpEntries printf depth entries

end

mutual

/-- The value with the entries of each of its objects in the order of a map. -/
def sorted : Json → Json
  | .object entries => .object (inOrder (sortedEntries entries))
  | .array items => .array (sortedItems items)
  | .null => .null
  | .string text => .string text
  | .floating mantissa exponent => .floating mantissa exponent
  | .integral value => .integral value
  | .boolean value => .boolean value

def sortedItems : List Json → List Json
  | [] => []
  | item :: items => sorted item :: sortedItems items

def sortedEntries : List (Bytes × Json) → List (Bytes × Json)
  | [] => []
  | (key, value) :: entries => (key, sorted value) :: sortedEntries entries

end

/-- Every value of an entry is replaced. -/
def mapValues {α β : Type} (f : α → β) (entries : List (Bytes × α)) : List (Bytes × β) :=
  entries.map fun entry => (entry.1, f entry.2)

section Equations

variable (printf : Bytes → Bytes → Bytes) (depth : Nat)

theorem dumpItems_eq (items : List Json) :
    dumpItems printf depth items = items.map (dump printf depth) := by
  induction items with
  | nil => rw [dumpItems, List.map_nil]
  | cons item items ih => rw [dumpItems, List.map_cons, ih]

theorem dumpEntries_eq (entries : List (Bytes × Json)) :
    dumpEntries printf depth entries = mapValues (dump printf depth) entries := by
  induction entries with
  | nil =>
      rw [dumpEntries]
      rfl
  | cons head entries ih =>
      rw [dumpEntries, ih]
      rfl

theorem sortedItems_eq (items : List Json) : sortedItems items = items.map sorted := by
  induction items with
  | nil => rw [sortedItems, List.map_nil]
  | cons item items ih => rw [sortedItems, List.map_cons, ih]

theorem sortedEntries_eq (entries : List (Bytes × Json)) :
    sortedEntries entries = mapValues sorted entries := by
  induction entries with
  | nil =>
      rw [sortedEntries]
      rfl
  | cons head entries ih =>
      rw [sortedEntries, ih]
      rfl

end Equations

section Order

variable {α β : Type}

theorem inOrder_perm (entries : List (Bytes × α)) : (inOrder entries).Perm entries :=
  List.mergeSort_perm entries _

/-- The order of a map does not depend on its values. -/
theorem inOrder_mapValues (f : α → β) (entries : List (Bytes × α)) :
    inOrder (mapValues f entries) = mapValues f (inOrder entries) := by
  unfold inOrder mapValues
  symm
  apply List.map_mergeSort
  intro left _ right _
  rfl

theorem inOrder_inOrder (entries : List (Bytes × α)) : inOrder (inOrder entries) = inOrder entries := by
  apply List.mergeSort_of_pairwise
  apply List.pairwise_mergeSort
  · intro a b c hab hbc
    rw [decide_eq_true_eq] at hab hbc ⊢
    exact List.le_trans hab hbc
  · intro a b
    rw [Bool.or_eq_true, decide_eq_true_eq, decide_eq_true_eq]
    exact List.le_total a.1 b.1

end Order

/-! ## What the parser stores -/

/-- The keys of an object are escaped and apart, and numbers have 64 bits. -/
inductive Stored : Json → Prop
  | null : Stored .null
  | object {entries : List (Bytes × Json)} (hnodup : (entries.map Prod.fst).Nodup)
      (hescaped : ∀ entry ∈ entries, ∃ key, jsonEscape key = entry.1)
      (hvalues : ∀ entry ∈ entries, Stored entry.2) : Stored (.object entries)
  | array {items : List Json} (hitems : ∀ item ∈ items, Stored item) : Stored (.array items)
  | string (text : Bytes) : Stored (.string text)
  | floating (mantissa exponent : Bytes) : Stored (.floating mantissa exponent)
  | integral {value : Int} (hlow : -2 ^ 63 ≤ value) (hhigh : value < 2 ^ 63) :
      Stored (.integral value)
  | boolean (value : Bool) : Stored (.boolean value)

theorem exists_escaped (json : Json) : ∃ key, jsonEscape key = json.toText := by
  cases json with
  | string text => exact ⟨text, rfl⟩
  | _ => exact ⟨[], rfl⟩

theorem mem_assign {key : Bytes} {value : Json} {entries : List (Bytes × Json)}
    {entry : Bytes × Json} (hmem : entry ∈ assign key value entries) :
    entry = (key, value) ∨ entry ∈ entries := by
  unfold assign at hmem
  split at hmem
  · obtain ⟨old, hold, rfl⟩ := List.mem_map.mp hmem
    split
    · exact .inl rfl
    · exact .inr hold
  · rcases List.mem_append.mp hmem with hold | hnew
    · exact .inr hold
    · exact .inl (List.mem_singleton.mp hnew)

theorem Stored.assign {entries : List (Bytes × Json)} (hentries : Stored (.object entries))
    (key : Json) {value : Json} (hvalue : Stored value) :
    Stored (.object (assign key.toText value entries)) := by
  cases hentries with
  | object hnodup hescaped hvalues =>
      refine .object (nodup_assign hnodup) (fun entry hmem => ?_) fun entry hmem => ?_
      · rcases mem_assign hmem with rfl | hold
        · exact exists_escaped key
        · exact hescaped entry hold
      · rcases mem_assign hmem with rfl | hold
        · exact hvalue
        · exact hvalues entry hold

theorem stored_parseString (rest text : Bytes) :
    Yields (fun result => Stored result.1) (parseString rest text) := by
  fun_induction parseString rest text
  all_goals first
    | exact Stored.string _
    | exact not_false
    | assumption

theorem stol_range (text : Bytes) :
    Yields (fun value => -2 ^ 63 ≤ value ∧ value < 2 ^ 63) (stol text) := by
  unfold stol
  refine .ite (fun _ => not_false) fun hrange => ?_
  obtain ⟨_, hrange⟩ := not_or.mp hrange
  obtain ⟨hlow, hhigh⟩ := not_or.mp hrange
  exact ⟨not_lt.mp hlow, not_le.mp hhigh⟩

theorem stored_parseNumber (rest : Bytes) :
    Yields (fun result => Stored result.1) (parseNumber rest) := by
  unfold parseNumber
  refine .bind (yields_true _) fun c _ _ => .ite (fun _ => ?_) fun _ => ?_
  · refine .bind (yields_true _) fun result _ _ => ?_
    rcases result with after | ⟨exponent, after⟩
    · exact Stored.null
    · refine .bind (yields_true _) fun _ _ _ => .ite (fun _ => ?_) fun _ => ?_
      · exact .ite (fun _ => Stored.floating _ _) fun _ => not_false
      · exact .bind (yields_true _) fun _ _ _ => Stored.floating _ _
  · refine .ite (fun _ => .ite (fun _ => ?_) fun _ => ?_) fun _ => Stored.null
    · exact .ite (fun _ => Stored.floating _ _) fun _ => not_false
    · exact .bind (stol_range _) fun _ _ hvalue => Stored.integral hvalue.1 hvalue.2

theorem stored_parseBool (rest : Bytes) : Stored (parseBool rest).1 := by
  unfold parseBool
  split
  · exact .boolean true
  · split
    · exact .boolean false
    · exact .null

theorem stored_parseNull (rest : Bytes) : Stored (parseNull rest).1 := by
  unfold parseNull
  split <;> exact .null

theorem stored_all (fuel : Nat) :
    (∀ cursor, Yields (fun result => Stored result.1) (parseNext fuel cursor)) ∧
    (∀ items cursor, Stored (.array items) →
      Yields (fun result => Stored result.1) (arrayLoop fuel items cursor)) ∧
    (∀ entries cursor, Stored (.object entries) →
      Yields (fun result => Stored result.1) (objectLoop fuel entries cursor)) := by
  have hnoItems : Stored (.array []) := .array fun _ hmem => absurd hmem List.not_mem_nil
  have hnoEntries : Stored (.object []) :=
    .object List.nodup_nil (fun _ hmem => absurd hmem List.not_mem_nil)
      fun _ hmem => absurd hmem List.not_mem_nil
  -- On the fuel, which the three functions share.
  induction fuel with
  | zero => exact ⟨fun _ => not_false, fun _ _ _ => not_false, fun _ _ _ => not_false⟩
  | succ fuel ih =>
      obtain ⟨hvalue, harray, hobject⟩ := ih
      refine ⟨fun cursor => ?_, fun items cursor hitems => ?_, fun entries cursor hentries => ?_⟩
      · rw [parseNext]
        refine .bind (yields_true _) fun after _ _ => ?_
        cases after with
        | none => exact not_false
        | some rest =>
            refine .bind (yields_true _) fun c _ _ => .ite (fun _ => ?_) fun _ =>
              .ite (fun _ => ?_) fun _ => .ite (fun _ => stored_parseString _ _) fun _ =>
              .ite (fun _ => stored_parseBool rest) fun _ =>
              .ite (fun _ => stored_parseNull rest) fun _ =>
              .ite (fun _ => stored_parseNumber rest) fun _ => Stored.null
            · exact .bind (yields_true _) fun _ _ _ => .bind (yields_true _) fun _ _ _ =>
                .ite (fun _ => hnoItems) fun _ => harray [] _ hnoItems
            · exact .bind (yields_true _) fun _ _ _ => .bind (yields_true _) fun _ _ _ =>
                .ite (fun _ => hnoEntries) fun _ => hobject [] _ hnoEntries
      · rw [arrayLoop]
        refine .bind (hvalue cursor) fun read _ hitem => ?_
        obtain ⟨item, behind⟩ := read
        have hmore : Stored (.array (items ++ [item])) := by
          cases hitems with
          | array hitems =>
              refine .array fun other hmem => ?_
              rcases List.mem_append.mp hmem with hold | hnew
              · exact hitems other hold
              · rw [List.mem_singleton.mp hnew]
                exact hitem
        exact .bind (yields_true _) fun _ _ _ => .bind (yields_true _) fun _ _ _ =>
          .ite (fun _ => harray _ _ hmore) fun _ => .ite (fun _ => hmore) fun _ => hnoItems
      · rw [objectLoop]
        refine .bind (hvalue cursor) fun name _ _ => ?_
        obtain ⟨key, behind⟩ := name
        refine .bind (yields_true _) fun _ _ _ => .bind (yields_true _) fun _ _ _ =>
          .ite (fun _ => hentries) fun _ => .bind (yields_true _) fun start _ _ => ?_
        refine .bind (hvalue start) fun read _ hread => ?_
        obtain ⟨value, ahead⟩ := read
        have hmore := hentries.assign key hread
        exact .bind (yields_true _) fun _ _ _ => .bind (yields_true _) fun _ _ _ =>
          .ite (fun _ => hobject _ _ hmore) fun _ => .ite (fun _ => hmore) fun _ => hmore

theorem stored_of_load {text : Bytes} {json : Json} (hload : load text = .ok json) :
    Stored json := by
  unfold load at hload
  have hstored := (stored_all (2 * text.length + 4)).1 (some text)
  cases hresult : parseNext (2 * text.length + 4) (some text) with
  | error e =>
      rw [hresult] at hload
      cases hload
  | ok result =>
      rw [hresult] at hload hstored
      cases hload
      exact hstored

/-! ## What is printed -/

/-- The value has no floating number in it. -/
inductive Whole : Json → Prop
  | null : Whole .null
  | object {entries : List (Bytes × Json)} (hvalues : ∀ entry ∈ entries, Whole entry.2) :
      Whole (.object entries)
  | array {items : List Json} (hitems : ∀ item ∈ items, Whole item) : Whole (.array items)
  | string (text : Bytes) : Whole (.string text)
  | integral (value : Int) : Whole (.integral value)
  | boolean (value : Bool) : Whole (.boolean value)

/-- An escaped text is read as the text it was made of. -/
theorem spellsChars_jsonEscape (text : Bytes) : SpellsChars text (jsonEscape text) := by
  induction text with
  | nil => exact .nil
  | cons c text ih =>
      unfold jsonEscape at ih ⊢
      rw [List.flatMap_cons]
      by_cases hquote : c = 34
      · rw [if_pos hquote, hquote]
        exact .escape (by decide) ih
      rw [if_neg hquote]
      by_cases hbackslash : c = 92
      · rw [if_pos hbackslash, hbackslash]
        exact .escape (by decide) ih
      rw [if_neg hbackslash]
      -- The characters that have a letter of their own.
      split
      next hc =>
        rw [hc]
        exact .escape (by decide) ih
      split
      next hc =>
        rw [hc]
        exact .escape (by decide) ih
      split
      next hc =>
        rw [hc]
        exact .escape (by decide) ih
      split
      next hc =>
        rw [hc]
        exact .escape (by decide) ih
      split
      next hc =>
        rw [hc]
        exact .escape (by decide) ih
      exact .plain hquote hbackslash ih

theorem spells_integral {value : Int} (hlow : -2 ^ 63 ≤ value) (hhigh : value < 2 ^ 63) :
    Spells (.value (.integral value))
      (if value < 0 then ascii "-" ++ decimal value.natAbs else decimal value.natAbs) := by
  have hdigits := decimal_isDigit value.natAbs
  have hvalue : digitsValue (decimal value.natAbs) = value.natAbs := digitsValue_decimal _
  split
  next hneg =>
    have hspells := Spells.negative (decimal_ne_nil value.natAbs) hdigits (by omega)
    rw [hvalue, Int.natCast_natAbs, abs_of_neg hneg, neg_neg] at hspells
    exact hspells
  next hpos =>
    have hspells := Spells.natural (decimal_ne_nil value.natAbs) hdigits (by omega)
    rw [hvalue, Int.natCast_natAbs, abs_of_nonneg (not_lt.mp hpos)] at hspells
    exact hspells

theorem intercalate_map_cons {α : Type} (separator : Bytes) (f : α → Bytes) (first second : α)
    (rest : List α) :
    separator.intercalate ((first :: second :: rest).map f) =
      f first ++ (separator ++ separator.intercalate ((second :: rest).map f)) := by
  rw [List.map_cons, List.map_cons, List.intercalate_cons_cons, List.append_assoc]

section Members

variable {value : Json → Json} {text : Json → Bytes}

theorem spells_items {items : List Json} (hne : items ≠ [])
    (hspells : ∀ item ∈ items, Spells (.value (value item)) (text item)) {front : Bytes}
    (hfront : Blank front) :
    Spells (.items (items.map value)) (front ++ (ascii ", ").intercalate (items.map text)) := by
  induction items generalizing front with
  | nil => exact absurd rfl hne
  | cons item items ih =>
      have hitem := hspells item List.mem_cons_self
      cases items with
      | nil =>
          have hlast := Spells.item hfront hitem blank_nil
          rw [List.append_nil] at hlast
          rw [List.map_singleton, List.map_singleton, List.intercalate_singleton]
          exact hlast
      | cons second rest =>
          have hmore := Spells.moreItems hfront hitem blank_nil
            (ih (List.cons_ne_nil _ _) (fun other hmem => hspells other (List.mem_cons_of_mem _ hmem))
              blank_space)
          rw [List.append_nil] at hmore
          rw [intercalate_map_cons, ← List.append_assoc]
          exact hmore

/-- The line of an entry. -/
def entryLine (pad : Bytes) (entry : Bytes × Bytes) : Bytes :=
  pad ++ ascii "\"" ++ entry.1 ++ ascii "\" : " ++ entry.2

/-- The parts of a line, as the parser finds them. -/
theorem entryLine_append (pad key value rest : Bytes) :
    entryLine pad (key, value) ++ rest =
      pad ++ (34 :: key ++ [34]) ++ [32] ++ 58 :: ([32] ++ value ++ rest) := by
  have hcolon : ascii "\" : " = [34, 32, 58, 32] := rfl
  have hopen : ascii "\"" = [34] := rfl
  simp [entryLine, hcolon, hopen]

theorem spells_members {members : List (Bytes × Json)} (hne : members ≠ [])
    (hspells : ∀ member ∈ members, Spells (.value (value member.2)) (text member.2))
    {front pad back : Bytes} (hfront : Blank front) (hpad : Blank pad) (hback : Blank back) :
    Spells (.members (mapValues value members))
      (front ++ (ascii ",\n").intercalate (members.map fun member =>
        entryLine pad (jsonEscape member.1, text member.2)) ++ back) := by
  induction members generalizing front with
  | nil => exact absurd rfl hne
  | cons member members ih =>
      have hvalue := hspells member List.mem_cons_self
      have hkey := spellsChars_jsonEscape member.1
      have hstart : Blank (front ++ pad) := by
        intro c hmem
        rcases List.mem_append.mp hmem with hc | hc
        · exact hfront c hc
        · exact hpad c hc
      -- The newline behind a comma is blank in front of the next member.
      cases members with
      | nil =>
          have hlast := Spells.member hstart hkey blank_space blank_space hvalue hback
          rw [List.map_singleton, List.intercalate_singleton, List.append_assoc front,
            entryLine_append]
          simp only [List.append_assoc] at hlast ⊢
          exact hlast
      | cons second rest =>
          have hmore := Spells.moreMembers hstart hkey blank_space blank_space hvalue blank_nil
            (ih (List.cons_ne_nil _ _) (fun other hmem => hspells other (List.mem_cons_of_mem _ hmem))
              blank_newline)
          have hcomma : ascii ",\n" = [44, 10] := rfl
          rw [intercalate_map_cons, List.append_assoc front, List.append_assoc, entryLine_append]
          simp only [List.append_assoc, List.append_nil, List.cons_append, List.nil_append,
            hcomma] at hmore ⊢
          exact hmore

end Members

/-- Members with keys apart are collected as they are. -/
theorem collect_distinct {members entries : List (Bytes × Json)}
    (hdistinct : ((entries ++ members.map fun member => (jsonEscape member.1, member.2)).map
      Prod.fst).Nodup) :
    collect members entries =
      entries ++ members.map fun member => (jsonEscape member.1, member.2) := by
  induction members generalizing entries with
  | nil => rw [List.map_nil, List.append_nil, collect, List.foldl_nil]
  | cons member members ih =>
      rw [List.map_cons, List.append_cons] at hdistinct ⊢
      have hnew : ∀ entry ∈ entries, entry.1 ≠ jsonEscape member.1 := by
        rw [List.map_append, List.map_append, List.map_singleton] at hdistinct
        intro entry hmem
        exact (List.nodup_append.mp (List.nodup_append.mp hdistinct).1).2.2 entry.1
          (List.mem_map_of_mem hmem) _ (List.mem_singleton_self _)
      have hstep : collect (member :: members) entries =
          collect members (assign (jsonEscape member.1) member.2 entries) := rfl
      rw [hstep, assign_new hnew, ih hdistinct]

/-- Escaped keys come from members. -/
theorem exists_members {entries : List (Bytes × Json)}
    (hescaped : ∀ entry ∈ entries, ∃ key, jsonEscape key = entry.1) :
    ∃ members : List (Bytes × Json),
      (members.map fun member => (jsonEscape member.1, member.2)) = entries := by
  induction entries with
  | nil => exact ⟨[], rfl⟩
  | cons entry entries ih =>
      obtain ⟨key, hkey⟩ := hescaped entry List.mem_cons_self
      obtain ⟨members, hmembers⟩ := ih fun other hmem => hescaped other (List.mem_cons_of_mem _ hmem)
      exact ⟨(key, entry.2) :: members, by rw [List.map_cons, hmembers, hkey]⟩

theorem blank_padding (depth : Nat) : Blank (padding (ascii "  ") depth) := by
  intro c hmem
  obtain ⟨tab, htab, hc⟩ := List.mem_flatten.mp hmem
  rw [List.eq_of_mem_replicate htab] at hc
  rcases List.mem_cons.mp hc with rfl | hc
  · rfl
  · rw [List.mem_singleton.mp hc]
    rfl

/-- The object of members, as it is printed. -/
theorem spells_object {value : Json → Json} {text : Json → Bytes} {members : List (Bytes × Json)}
    (hspells : ∀ member ∈ members, Spells (.value (value member.2)) (text member.2)) (depth : Nat) :
    Spells (.value (.object (collect (mapValues value members) [])))
      (ascii "\x7b\n" ++ (ascii ",\n").intercalate (members.map fun member =>
          entryLine (padding (ascii "  ") depth) (jsonEscape member.1, text member.2)) ++
        (ascii "\n" ++ (padding (ascii "  ") depth).drop 2 ++ ascii "\x7d")) := by
  have hpad := blank_padding depth
  have hend : Blank (10 :: (padding (ascii "  ") depth).drop 2) := by
    intro c hmem
    rcases List.mem_cons.mp hmem with rfl | hc
    · rfl
    · exact hpad c (List.mem_of_mem_drop hc)
  by_cases hne : members = []
  · subst hne
    refine @Spells.emptyObject (10 :: 10 :: (padding (ascii "  ") depth).drop 2) fun c hmem => ?_
    rcases List.mem_cons.mp hmem with rfl | hc
    · rfl
    · exact hend c hc
  · have hobject := Spells.object (spells_members hne hspells blank_newline hpad hend)
    have hopen : ascii "\x7b\n" = [123, 10] := rfl
    have hclose : ascii "\x7d" = [125] := rfl
    have hnewline : ascii "\n" = [10] := rfl
    simp only [List.append_assoc, List.cons_append, List.nil_append] at hobject
    simp only [hopen, hclose, hnewline, List.cons_append, List.nil_append]
    exact hobject

/-- A stored value without floating numbers is printed as a text of JSON. -/
theorem Stored.spells_dump {json : Json} (hstored : Stored json) (hwhole : Whole json)
    (printf : Bytes → Bytes → Bytes) (depth : Nat) :
    Spells (.value json.sorted) (dump printf depth json) := by
  induction hstored generalizing depth with
  | null =>
      rw [sorted, dump]
      exact .null
  | string text =>
      rw [sorted, dump]
      exact .string (spellsChars_jsonEscape text)
  | floating mantissa exponent => cases hwhole
  | integral hlow hhigh =>
      rw [sorted, dump]
      exact spells_integral hlow hhigh
  | boolean value =>
      rw [sorted, dump]
      cases value with
      | true => exact .boolTrue
      | false => exact .boolFalse
  | @array items hitems ih =>
      cases hwhole with
      | array hwhole =>
          rw [sorted, dump, sortedItems_eq, dumpItems_eq]
          by_cases hne : items = []
          · subst hne
            exact @Spells.emptyArray [] blank_nil
          · have hspells := spells_items hne
              (fun item hmem => ih item hmem (hwhole item hmem) (depth + 1)) blank_nil
            exact .array hspells
  | @object entries hnodup hescaped hvalues ih =>
      cases hwhole with
      | object hwhole =>
          have hmem : ∀ entry ∈ inOrder entries, entry ∈ entries := fun entry =>
            (inOrder_perm entries).mem_iff.mp
          have hkeys : ((inOrder entries).map Prod.fst).Nodup :=
            ((inOrder_perm entries).map Prod.fst).nodup_iff.mpr hnodup
          -- The stored keys are escaped: they are printed as the texts they were made of.
          obtain ⟨members, hmembers⟩ := exists_members fun entry h => hescaped entry (hmem entry h)
          rw [← hmembers, List.map_map] at hkeys
          -- The keys are apart, so no member replaces another.
          have hcollect : collect (mapValues sorted members) [] =
              mapValues sorted (members.map fun member => (jsonEscape member.1, member.2)) := by
            rw [collect_distinct, List.nil_append, mapValues, mapValues, List.map_map, List.map_map]
            · rfl
            · rw [List.nil_append, mapValues, List.map_map, List.map_map]
              exact hkeys
          have hvalue : ∀ member ∈ members, Spells (.value member.2.sorted)
              (dump printf (depth + 1) member.2) := by
            intro member hmember
            have hentry := hmem (jsonEscape member.1, member.2)
              (hmembers ▸ List.mem_map_of_mem hmember)
            exact ih _ hentry (hwhole _ hentry) (depth + 1)
          have hspells := spells_object hvalue depth
          rw [sorted, dump, sortedEntries_eq, dumpEntries_eq, inOrder_mapValues, inOrder_mapValues,
            ← hmembers, ← hcollect]
          unfold mapValues at hspells ⊢
          rw [List.map_map, List.map_map]
          exact hspells

/-! ## Reading it again -/

/-- The order of the entries is not printed. -/
theorem dump_sorted (printf : Bytes → Bytes → Bytes) {json : Json} (hstored : Stored json)
    (depth : Nat) : dump printf depth json.sorted = dump printf depth json := by
  induction hstored generalizing depth with
  | @array items hitems ih =>
      rw [sorted, dump, dump, sortedItems_eq, dumpItems_eq, dumpItems_eq, List.map_map]
      have hsame : items.map (dump printf (depth + 1) ∘ sorted) = items.map (dump printf (depth + 1)) :=
        List.map_congr_left fun item hmem => ih item hmem (depth + 1)
      rw [hsame]
  | @object entries hnodup hescaped hvalues ih =>
      have hsame : mapValues (dump printf (depth + 1)) (mapValues sorted entries) =
          mapValues (dump printf (depth + 1)) entries := by
        unfold mapValues
        rw [List.map_map]
        apply List.map_congr_left
        intro entry hmem
        rw [Function.comp_apply, ih entry hmem]
      rw [sorted, dump, dump, sortedEntries_eq, dumpEntries_eq, dumpEntries_eq, ← inOrder_mapValues,
        hsame, inOrder_inOrder]
  | _ => rw [sorted]

/-- What `JSON::Load` has read of any text is printed as a text that `JSON::Load` reads as the same
value, and that is printed as it is. -/
theorem load_dump {text : Bytes} {json : Json} (hload : load text = .ok json) (hwhole : Whole json)
    (hnumber : ∀ value, json ≠ .integral value) (printf : Bytes → Bytes → Bytes) :
    load (dump printf 1 json) = .ok json.sorted ∧
      dump printf 1 json.sorted = dump printf 1 json := by
  have hstored := stored_of_load hload
  refine ⟨?_, dump_sorted printf hstored 1⟩
  have hspells := hstored.spells_dump hwhole printf 1
  have hbare : ∀ value, json.sorted ≠ .integral value := by
    intro value heq
    cases json with
    | integral number => exact hnumber number rfl
    | null => rw [sorted] at heq; cases heq
    | object entries => rw [sorted] at heq; cases heq
    | array items => rw [sorted] at heq; cases heq
    | string text => rw [sorted] at heq; cases heq
    | floating mantissa exponent => rw [sorted] at heq; cases heq
    | boolean value => rw [sorted] at heq; cases heq
  have hread := load_of_spells blank_nil hspells (follows_nil hbare)
  rw [List.nil_append, List.append_nil] at hread
  exact hread

/-- Two members out of order, one with an escape in its key. -/
theorem load_dump_unordered :
    load (dump (fun _ _ => []) 1 (.object [(ascii "b\\n", .boolean true), (ascii "a", .array [])])) =
        .ok (sorted (.object [(ascii "b\\n", .boolean true), (ascii "a", .array [])])) ∧
      dump (fun _ _ => []) 1 (sorted (.object [(ascii "b\\n", .boolean true), (ascii "a", .array [])])) =
        dump (fun _ _ => []) 1 (.object [(ascii "b\\n", .boolean true), (ascii "a", .array [])]) := by
  have hkey : SpellsChars (ascii "b\n") (ascii "b\\n") :=
    .plain (by decide) (by decide) (.escape (show ((110 : UInt8), (10 : UInt8)) ∈ escapes by decide) .nil)
  have hother : SpellsChars (ascii "a") (ascii "a") := .plain (by decide) (by decide) .nil
  have hmembers := Spells.moreMembers blank_nil hkey blank_nil blank_nil .boolTrue blank_nil
    (.member blank_nil hother blank_nil blank_nil (.emptyArray blank_nil) blank_nil)
  have hload : load _ = .ok (.object [(ascii "b\\n", .boolean true), (ascii "a", .array [])]) :=
    @load_of_spells _ [] _ [] blank_nil (.object hmembers) trivial
  have hwhole : Whole (.object [(ascii "b\\n", .boolean true), (ascii "a", .array [])]) := by
    refine .object fun entry hmem => ?_
    rcases List.mem_cons.mp hmem with rfl | hmem
    · exact .boolean true
    · rw [List.mem_singleton.mp hmem]
      exact .array fun _ hitem => absurd hitem List.not_mem_nil
  have hnumber : ∀ value,
      (.object [(ascii "b\\n", .boolean true), (ascii "a", .array [])] : Json) ≠ .integral value := by
    intro value heq
    cases heq
  exact load_dump hload hwhole hnumber _

end Json

end RemoteAttestation
