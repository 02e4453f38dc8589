import H5Server.Codec.Base64
import Mathlib.Logic.Function.Basic
import Mathlib.Data.List.Nodup

/-! # Query parameters (`OrderServer::parseQuery`)

The decrypted parameters are pairs `key=value` joined by `&`. Whatever stands in front of the first question mark is
skipped, as in a whole request line.
-/

namespace H5Server.Order

open Codec

/-- `HttpParams`: a map from keys to values. -/
abbrev HttpParams := List Byte → Option (List Byte)

/-- The loop over the pairs: `=` and `&` are both looked for in all that is left. -/
def parsePairs (subStr : List Byte) (params : HttpParams) : HttpParams :=
  match subStr.idxOf? 61 with
  | none => params
  | some kpos =>
    match found : subStr.idxOf? 38 with
    | none => Function.update params (subStr.take kpos) (some (subStr.drop (kpos + 1)))
    | some spos =>
      if kpos < spos then
        parsePairs (subStr.drop (spos + 1))
          (Function.update params (subStr.take kpos) (some ((subStr.drop (kpos + 1)).take (spos - kpos - 1))))
      else params
termination_by subStr.length
decreasing_by
  obtain ⟨inside, -⟩ := List.idxOf?_eq_some_iff.mp found
  rw [List.length_drop]
  omega

/-- What stands behind the first question mark, or all. -/
def skipQuestion (queryStr : List Byte) : List Byte :=
  match queryStr.idxOf? 63 with
  | some npos => queryStr.drop (npos + 1)
  | none => queryStr

def parseQuery (queryStr : List Byte) : Bool × HttpParams :=
  let subStr := skipQuestion queryStr
  if subStr.isEmpty then (true, fun _ => none) else (true, parsePairs subStr fun _ => none)

/-! ## What is printed -/

/-- The text of the pairs, `k1=v1&...&kn=vn`. -/
def printPairs : List (List Byte × List Byte) → List Byte
  | [] => []
  | [pair] => pair.1 ++ 61 :: pair.2
  | pair :: pairs => pair.1 ++ 61 :: (pair.2 ++ 38 :: printPairs pairs)

/-- A query, with or without the question mark in front. -/
def printQuery (lead : Bool) (pairs : List (List Byte × List Byte)) : List Byte :=
  if lead then 63 :: printPairs pairs else printPairs pairs

/-- No key holds a separator, and no value an ampersand. -/
structure PrintablePair (pair : List Byte × List Byte) : Prop where
  key_ne : pair.1 ≠ []
  key_equals : (61 : Byte) ∉ pair.1
  key_ampersand : (38 : Byte) ∉ pair.1
  key_question : (63 : Byte) ∉ pair.1
  value_ampersand : (38 : Byte) ∉ pair.2

/-- The pairs written into a map one after the other. -/
def written (params : HttpParams) (pairs : List (List Byte × List Byte)) : HttpParams :=
  pairs.foldl (fun params pair => Function.update params pair.1 (some pair.2)) params

/-! ## The loop -/

theorem idxOf?_append_cons {c : Byte} {front : List Byte} (none_ : c ∉ front) (back : List Byte) :
    (front ++ c :: back).idxOf? c = some front.length := by
  induction front with
  | nil => rw [List.nil_append, List.idxOf?_cons, if_pos (beq_self_eq_true c), List.length_nil]
  | cons x front ih =>
    rw [List.mem_cons, not_or] at none_
    obtain ⟨other, behind⟩ := none_
    rw [List.cons_append, List.idxOf?_cons, if_neg (by simpa using Ne.symm other), ih behind]
    rfl

/-- Without `=` before the next `&` the loop ends. -/
theorem parsePairs_of_not_mem {front : List Byte} (none_ : (61 : Byte) ∉ front) (back : List Byte)
    (params : HttpParams) : parsePairs front params = params ∧
      ((38 : Byte) ∉ front → parsePairs (front ++ 38 :: back) params = params) := by
  constructor
  · rw [parsePairs, List.idxOf?_eq_none_iff.mpr none_]
  · intro ampersand
    rw [parsePairs]
    split
    · rfl
    · rename_i kpos found
      split
      · rename_i lost
        rw [idxOf?_append_cons ampersand] at lost
        exact absurd lost (Option.some_ne_none _)
      · rename_i spos first
        rw [idxOf?_append_cons ampersand, Option.some_inj] at first
        subst first
        rw [if_neg]
        intro before
        obtain ⟨inside, same, -⟩ := List.idxOf?_eq_some_iff.mp found
        rw [List.getElem_append_left before] at same
        exact none_ (same ▸ List.getElem_mem before)

theorem parsePairs_last {pair : List Byte × List Byte} (key : (61 : Byte) ∉ pair.1) (ampersand : (38 : Byte) ∉ pair.1)
    (value : (38 : Byte) ∉ pair.2) (params : HttpParams) :
    parsePairs (pair.1 ++ 61 :: pair.2) params = Function.update params pair.1 (some pair.2) := by
  have none_ : (pair.1 ++ 61 :: pair.2).idxOf? 38 = none := by
    rw [List.idxOf?_eq_none_iff, List.mem_append, List.mem_cons]
    rintro (inside | same | inside)
    · exact ampersand inside
    · exact absurd same (by decide)
    · exact value inside
  rw [parsePairs, idxOf?_append_cons key]
  dsimp only
  split
  · rw [List.take_left, List.drop_append, List.drop_of_length_le (by omega), Nat.add_sub_cancel_left]
    rfl
  · rename_i found
    rw [none_] at found
    exact absurd found (Option.some_ne_none _).symm

theorem parsePairs_cons {pair : List Byte × List Byte} (key : (61 : Byte) ∉ pair.1) (ampersand : (38 : Byte) ∉ pair.1)
    (value : (38 : Byte) ∉ pair.2) (rest : List Byte) (params : HttpParams) :
    parsePairs (pair.1 ++ 61 :: (pair.2 ++ 38 :: rest)) params =
      parsePairs rest (Function.update params pair.1 (some pair.2)) := by
  have split_ : pair.1 ++ 61 :: (pair.2 ++ 38 :: rest) = (pair.1 ++ 61 :: pair.2) ++ 38 :: rest := by
    rw [List.append_assoc, List.cons_append]
  have first : (pair.1 ++ 61 :: (pair.2 ++ 38 :: rest)).idxOf? 38 = some (pair.1.length + pair.2.length + 1) := by
    rw [split_, idxOf?_append_cons, List.length_append, List.length_cons, Nat.add_assoc]
    rw [List.mem_append, List.mem_cons]
    rintro (inside | same | inside)
    · exact ampersand inside
    · exact absurd same (by decide)
    · exact value inside
  rw [parsePairs, idxOf?_append_cons key]
  dsimp only
  split
  · rename_i lost
    rw [first] at lost
    exact absurd lost (Option.some_ne_none _)
  · rename_i spos found
    rw [first, Option.some_inj] at found
    subst found
    rw [if_pos (by omega)]
    congr 1
    · rw [split_, List.drop_append, List.drop_of_length_le (by rw [List.length_append, List.length_cons]; omega),
        List.nil_append, List.length_append, List.length_cons,
        show pair.1.length + pair.2.length + 1 + 1 - (pair.1.length + (pair.2.length + 1)) = 1 by omega]
      rfl
    · congr 2
      · rw [List.take_left]
      · rw [List.drop_append, List.drop_of_length_le (by omega), Nat.add_sub_cancel_left, List.nil_append,
          List.drop_one, List.tail_cons,
          show pair.1.length + pair.2.length + 1 - pair.1.length - 1 = pair.2.length by omega, List.take_left]

/-- The loop reads the pairs back in their order. -/
theorem parsePairs_printPairs {pairs : List (List Byte × List Byte)}
    (printable : ∀ pair ∈ pairs, (61 : Byte) ∉ pair.1 ∧ (38 : Byte) ∉ pair.1 ∧ (38 : Byte) ∉ pair.2)
    (params : HttpParams) :
    parsePairs (printPairs pairs) params = written params pairs := by
  induction pairs generalizing params with
  | nil => exact (parsePairs_of_not_mem List.not_mem_nil [] params).1
  | cons pair pairs ih =>
    obtain ⟨key, ampersand, value⟩ := printable pair List.mem_cons_self
    cases pairs with
    | nil => exact parsePairs_last key ampersand value params
    | cons next pairs =>
      rw [printPairs, parsePairs_cons key ampersand value]
      · exact ih (fun other present => printable other (List.mem_cons_of_mem _ present)) _
      · exact List.cons_ne_nil _ _

/-! ## The map read back -/

theorem written_of_not_mem {key : List Byte} {pairs : List (List Byte × List Byte)} (params : HttpParams)
    (none_ : key ∉ pairs.map Prod.fst) : written params pairs key = params key := by
  induction pairs generalizing params with
  | nil => rfl
  | cons pair pairs ih =>
    rw [List.map_cons, List.mem_cons, not_or] at none_
    rw [written, List.foldl_cons]
    exact (ih _ none_.2).trans (Function.update_of_ne none_.1 _ _)

/-- Keys that are different are not written over. -/
theorem written_eq_some {pairs : List (List Byte × List Byte)} (nodup : (pairs.map Prod.fst).Nodup)
    {key value : List Byte} : written (fun _ => none) pairs key = some value ↔ (key, value) ∈ pairs := by
  suffices general : ∀ params : HttpParams, written params pairs key = some value ↔
      (key, value) ∈ pairs ∨ (key ∉ pairs.map Prod.fst ∧ params key = some value) by
    simpa using general fun _ => none
  intro params
  induction pairs generalizing params with
  | nil => simp [written]
  | cons pair pairs ih =>
    rw [List.map_cons, List.nodup_cons] at nodup
    rw [written, List.foldl_cons]
    refine (ih nodup.2 _).trans ?_
    rcases eq_or_ne key pair.1 with rfl | other
    · have behind : (pair.1, value) ∉ pairs := fun inside => nodup.1 (List.mem_map.mpr ⟨_, inside, rfl⟩)
      rw [Function.update_self, List.mem_cons, Prod.ext_iff, Option.some_inj]
      simp [behind, nodup.1, eq_comm]
    · rw [Function.update_of_ne other, List.mem_cons, Prod.ext_iff, List.map_cons, List.mem_cons]
      simp [other]

theorem question_not_mem {pairs : List (List Byte × List Byte)} (printable : ∀ pair ∈ pairs, PrintablePair pair)
    (none_ : ∀ pair ∈ pairs, (63 : Byte) ∉ pair.2) : (63 : Byte) ∉ printPairs pairs := by
  induction pairs with
  | nil => exact List.not_mem_nil
  | cons pair pairs ih =>
    have key := (printable pair List.mem_cons_self).key_question
    have value := none_ pair List.mem_cons_self
    have behind := ih (fun other present => printable other (List.mem_cons_of_mem _ present))
      fun other present => none_ other (List.mem_cons_of_mem _ present)
    cases pairs with
    | nil =>
      rw [printPairs, List.mem_append, List.mem_cons]
      rintro (inside | same | inside)
      · exact key inside
      · exact absurd same (by decide)
      · exact value inside
    | cons next pairs =>
      rw [printPairs, List.mem_append, List.mem_cons, List.mem_append, List.mem_cons]
      · rintro (inside | same | inside | same | inside)
        · exact key inside
        · exact absurd same (by decide)
        · exact value inside
        · exact absurd same (by decide)
        · exact behind inside
      · exact List.cons_ne_nil _ _

/-- The rest of a value with the pairs behind it. -/
def tailText (rest : List Byte) (back : List (List Byte × List Byte)) : List Byte :=
  match back with
  | [] => rest
  | back => rest ++ 38 :: printPairs back

theorem printPairs_eq (pair : List Byte × List Byte) (back : List (List Byte × List Byte)) :
    printPairs (pair :: back) = pair.1 ++ 61 :: tailText pair.2 back := by
  cases back with
  | nil => rfl
  | cons next back => rfl

/-- The first question mark of a text stands in a value. -/
theorem exists_question {pairs : List (List Byte × List Byte)} (printable : ∀ pair ∈ pairs, PrintablePair pair)
    (some_ : ∃ pair ∈ pairs, (63 : Byte) ∈ pair.2) : ∃ pair back front before after, pair :: back <:+ pairs ∧
      pair.2 = before ++ 63 :: after ∧ (63 : Byte) ∉ front ∧ printPairs pairs = front ++ 63 :: tailText after back := by
  induction pairs with
  | nil => exact absurd some_ (by simp)
  | cons pair pairs ih =>
    have key := (printable pair List.mem_cons_self).key_question
    rcases em ((63 : Byte) ∈ pair.2) with here | behind
    · obtain ⟨before, after, split_, none_⟩ := List.eq_append_cons_of_mem here
      refine ⟨pair, pairs, pair.1 ++ 61 :: before, before, after, List.suffix_refl _, split_, ?_, ?_⟩
      · rw [List.mem_append, List.mem_cons]
        rintro (inside | same | inside)
        · exact key inside
        · exact absurd same (by decide)
        · exact none_ inside
      · rw [printPairs_eq, split_, List.append_assoc, List.cons_append]
        congr 2
        cases pairs with
        | nil => rfl
        | cons next pairs => exact List.append_assoc _ _ _
    · obtain ⟨found, inside, question⟩ := some_
      obtain rfl | inside := List.mem_cons.mp inside
      · exact absurd question behind
      · obtain ⟨first, back, front, before, after, suffix, split_, none_, text⟩ :=
          ih (fun other present => printable other (List.mem_cons_of_mem _ present)) ⟨found, inside, question⟩
        refine ⟨first, back, pair.1 ++ 61 :: (pair.2 ++ 38 :: front), before, after,
          suffix.trans (List.suffix_cons _ _), split_, ?_, ?_⟩
        · rw [List.mem_append, List.mem_cons, List.mem_append, List.mem_cons]
          rintro (inside | same | inside | same | inside)
          · exact key inside
          · exact absurd same (by decide)
          · exact behind inside
          · exact absurd same (by decide)
          · exact none_ inside
        · cases pairs with
          | nil => exact absurd inside List.not_mem_nil
          | cons next pairs =>
            rw [printPairs, text]
            · simp
            · exact List.cons_ne_nil _ _

/-- Whatever is left of a value and the pairs behind it, the pair itself is not read. -/
theorem parsePairs_tailText {pair : List Byte × List Byte} {back : List (List Byte × List Byte)}
    {before after : List Byte} (printable : ∀ other ∈ pair :: back, PrintablePair other)
    (nodup : pair.1 ∉ back.map Prod.fst) (split_ : pair.2 = before ++ 63 :: after) :
    parsePairs (tailText after back) (fun _ => none) pair.1 ≠ some pair.2 := by
  have ampersand : (38 : Byte) ∉ after := by
    have none_ := (printable pair List.mem_cons_self).value_ampersand
    rw [split_] at none_
    exact fun inside => none_ (List.mem_append_right _ (List.mem_cons_of_mem _ inside))
  rcases em ((61 : Byte) ∈ after) with equals | none_
  · obtain ⟨key, value, cut, first⟩ := List.eq_append_cons_of_mem equals
    have text : tailText after back = printPairs ((key, value) :: back) := by
      rw [printPairs_eq, cut]
      cases back with
      | nil => rfl
      | cons next back => exact List.append_assoc _ _ _
    rw [text, parsePairs_printPairs]
    · rw [written, List.foldl_cons]
      intro same
      have read := (written_of_not_mem _ nodup).symm.trans same
      rcases eq_or_ne pair.1 key with rfl | other
      · rw [Function.update_self, Option.some_inj] at read
        -- What is left of the value is shorter.
        have shorter := congrArg List.length split_
        dsimp only at read
        rw [cut, ← read] at shorter
        simp only [List.length_append, List.length_cons] at shorter
        omega
      · rw [Function.update_of_ne other] at read
        exact absurd read (Option.some_ne_none _).symm
    · intro other present
      rcases List.mem_cons.mp present with rfl | behind
      · rw [cut] at ampersand
        exact ⟨first, fun inside => ampersand (List.mem_append_left _ inside),
          fun inside => ampersand (List.mem_append_right _ (List.mem_cons_of_mem _ inside))⟩
      · have good := printable other (List.mem_cons_of_mem _ behind)
        exact ⟨good.key_equals, good.key_ampersand, good.value_ampersand⟩
  · have lost : parsePairs (tailText after back) (fun _ => none) = fun _ => none := by
      cases back with
      | nil => exact (parsePairs_of_not_mem none_ [] _).1
      | cons next back => exact (parsePairs_of_not_mem none_ _ _).2 ampersand
    rw [lost]
    exact (Option.some_ne_none _).symm

/-- What the query says is what is read. -/
def ReadsBack (text : List Byte) (pairs : List (List Byte × List Byte)) : Prop :=
  (parseQuery text).1 = true ∧ ∀ key value, (parseQuery text).2 key = some value ↔ (key, value) ∈ pairs

theorem parseQuery_eq (text : List Byte) : parseQuery text = (true, parsePairs (skipQuestion text) fun _ => none) := by
  rw [parseQuery]
  split_ifs with empty
  · rw [List.isEmpty_iff.mp empty, (parsePairs_of_not_mem List.not_mem_nil [] _).1]
  · rfl

theorem skipQuestion_append {front : List Byte} (none_ : (63 : Byte) ∉ front) (back : List Byte) :
    skipQuestion (front ++ 63 :: back) = back := by
  rw [skipQuestion, idxOf?_append_cons none_]
  dsimp only
  rw [List.drop_append, List.drop_of_length_le (by omega), Nat.add_sub_cancel_left, List.nil_append, List.drop_one,
    List.tail_cons]

theorem skipQuestion_of_not_mem {text : List Byte} (none_ : (63 : Byte) ∉ text) : skipQuestion text = text := by
  rw [skipQuestion, List.idxOf?_eq_none_iff.mpr none_]

theorem readsBack_of_skipped {text : List Byte} {pairs : List (List Byte × List Byte)}
    (printable : ∀ pair ∈ pairs, PrintablePair pair) (nodup : (pairs.map Prod.fst).Nodup)
    (skipped : skipQuestion text = printPairs pairs) : ReadsBack text pairs := by
  have read : ∀ pair ∈ pairs, (61 : Byte) ∉ pair.1 ∧ (38 : Byte) ∉ pair.1 ∧ (38 : Byte) ∉ pair.2 :=
    fun pair present => ⟨(printable pair present).key_equals, (printable pair present).key_ampersand,
      (printable pair present).value_ampersand⟩
  rw [ReadsBack, parseQuery_eq, skipped, parsePairs_printPairs read]
  exact ⟨rfl, fun key value => written_eq_some nodup⟩

/-- A query is read back exactly when it begins with a question mark or no value holds one. -/
theorem parseQuery_printQuery_iff (pairs : List (List Byte × List Byte)) (lead : Bool)
    (printable : ∀ pair ∈ pairs, PrintablePair pair) (nodup : (pairs.map Prod.fst).Nodup) :
    ReadsBack (printQuery lead pairs) pairs ↔ lead = true ∨ ∀ pair ∈ pairs, (63 : Byte) ∉ pair.2 := by
  constructor
  · rintro ⟨-, reads⟩
    by_contra! neither
    obtain ⟨bare, some_⟩ := neither
    rw [printQuery, if_neg bare] at reads
    obtain ⟨pair, back, front, before, after, suffix, split_, none_, text⟩ := exists_question printable some_
    have read := (reads pair.1 pair.2).mpr (suffix.subset List.mem_cons_self)
    have later : pair.1 ∉ back.map Prod.fst := by
      have inner : ((pair :: back).map Prod.fst).Nodup := nodup.sublist (suffix.sublist.map _)
      rw [List.map_cons, List.nodup_cons] at inner
      exact inner.1
    rw [parseQuery_eq, text, skipQuestion_append none_] at read
    exact parsePairs_tailText (fun other present => printable other (suffix.subset present)) later split_ read
  · intro either
    apply readsBack_of_skipped printable nodup
    rcases lead
    · exact skipQuestion_of_not_mem (question_not_mem printable (either.resolve_left Bool.false_ne_true))
    · exact skipQuestion_append List.not_mem_nil _

/-- A value with a question mark, in a query that begins with a key. -/
theorem parseQuery_question : (∀ pair ∈ [([97], [98, 63, 99])], PrintablePair pair) ∧
    ¬ReadsBack (printQuery false [([97], [98, 63, 99])]) [([97], [98, 63, 99])] := by
  constructor
  · intro pair present
    rw [List.mem_singleton.mp present]
    constructor <;> decide
  · rintro ⟨-, reads⟩
    have read := (reads [97] [98, 63, 99]).mpr (List.mem_singleton_self _)
    have skipped : skipQuestion (printQuery false [([97], [98, 63, 99])]) = [99] := by decide
    rw [parseQuery_eq, skipped, (parsePairs_of_not_mem (by decide) [] _).1] at read
    exact absurd read (Option.some_ne_none _).symm

theorem parseQuery_two :
    ReadsBack (printQuery true [([97], [98, 63, 61]), ([99], [])]) [([97], [98, 63, 61]), ([99], [])] :=
  (parseQuery_printQuery_iff [([97], [98, 63, 61]), ([99], [])] true
    (by
      intro pair present
      simp only [List.mem_cons, List.not_mem_nil, or_false] at present
      rcases present with rfl | rfl <;> constructor <;> decide)
    (by decide)).mpr (.inl rfl)

end H5Server.Order
