import CachedParameters.Document.Reader
import CachedParameters.Proofs.Document.Numbers
import CachedParameters.Proofs.Document.Sorted
import CachedParameters.Proofs.Document.Texts
import CachedParameters.Proofs.Document.Unambiguous

/-!
# Documents are read back

Reading the compact text of a document without reals gives the document, if its lists and objects
nest no deeper than allowed, and fails because they do otherwise. The members of an object may have
been written in any order and some names more than once: what is read is sorted, which means that
the members ascend by name and that the last one of each name stays.

The induction follows the document; like the reader it goes through the elements of a list and the
members of an object one after another, with what was read before them. Two things have to be told
of every text: what follows it, which must not continue a number, and how much fuel is left, of
which twice the bytes to come is always enough.

## Main results

- `readValue_chars`: the text of a document is read as the document sorted, or is too deep.
- `readElements_chars`, `readMembers_chars`: so are elements and members, behind those already read.
- `read_render_sorted`: with white space around it, too.
- `read_render`: the text of a well-formed document is read as the document itself.
-/

namespace CachedParameters.Document

open Text (bytes)

/-! ### White space and first bytes -/

theorem skipSpace_append {space : List UInt8} (h : ∀ byte ∈ space, Cursor.isSpace byte = true)
    (rest : List UInt8) (place : Position) :
    Cursor.skipSpace ⟨space ++ rest, place⟩ = Cursor.skipSpace ⟨rest, place.afterAll space⟩ := by
  simp only [Cursor.skipSpace, Cursor.skipWhile, List.dropWhile_append_of_pos h,
    List.takeWhile_append_of_pos h, Position.afterAll, List.foldl_append]

/-- Where no white space stands, none is taken. -/
theorem skipSpace_of_not_space {byte : UInt8} (h : Cursor.isSpace byte = false)
    (rest : List UInt8) (place : Position) :
    Cursor.skipSpace ⟨byte :: rest, place⟩ = ⟨byte :: rest, place⟩ := by
  have hne : ¬ Cursor.isSpace byte = true := by
    rw [h]
    exact Bool.false_ne_true
  simp only [Cursor.skipSpace, Cursor.skipWhile, List.dropWhile_cons_of_neg hne,
    List.takeWhile_cons_of_neg hne]
  rfl

/-- A character that begins a document is one byte: no white space, and no bracket that ends
something. -/
theorem byte_of_kind {c : Char} {kind : Kind} (h : Kind.ofChar? c = some kind) :
    ∃ byte, String.utf8EncodeChar c = [byte] ∧ Cursor.isSpace byte = false ∧ byte ≠ 0x5D ∧
      byte ≠ 0x7D := by
  have hlow : c.toNat < 0x80 := by
    rw [Kind.ofChar?] at h
    split_ifs at h with hnumber hn ht hf htext hlist hobject
    · rcases hnumber with hdigit | rfl
      · exact Nat.lt_of_le_of_lt (Char.isDigit_iff_toNat.mp hdigit).2 (by decide)
      · decide
    all_goals
      subst c
      decide
  refine ⟨UInt8.ofNat c.toNat, Text.utf8EncodeChar_of_lt hlow, ?_⟩
  have hsome : (Kind.ofChar? c).isSome = true := by
    rw [h]
    rfl
  revert hsome
  apply Text.forall_of_ascii ?_ hlow
  decide

/-- The text of a document begins with a byte that is no white space and ends nothing. -/
theorem bytes_chars_eq_cons (d : Document) :
    ∃ byte front, bytes (chars d) = byte :: front ∧ Cursor.isSpace byte = false ∧ byte ≠ 0x5D ∧
      byte ≠ 0x7D := by
  obtain ⟨c, front, hchars, hkind⟩ := chars_eq_cons d
  obtain ⟨byte, hbyte, hspace⟩ := byte_of_kind hkind
  refine ⟨byte, bytes front, ?_, hspace⟩
  rw [hchars, Text.bytes_cons, hbyte, List.singleton_append]

theorem stopsNumber_elementChars (elements : List Document) (rest : List UInt8) :
    StopsNumber (bytes (elementChars elements) ++ rest) := by
  cases elements <;> rw [elementChars] <;> rintro byte ⟨⟩ <;> decide

theorem stopsNumber_memberChars (members : List (String × Document)) (rest : List UInt8) :
    StopsNumber (bytes (memberChars members) ++ rest) := by
  cases members <;> rw [memberChars] <;> rintro byte ⟨⟩ <;> decide

/-! ### Values -/

/-- The outcome of reading a document that `rest` follows: the document, if it fits into the levels
that are left, and else the fault that it is too deep. Where the cursor stands is left open, since
it only decides the place that an error names. -/
structure ReadsAs (fits : Prop) (d : Document) (rest : List UInt8)
    (outcome : Except ReadError (Document × Cursor)) : Prop where
  ok : fits → ∃ place, outcome = .ok (d, ⟨rest, place⟩)
  tooDeep : ¬ fits → ∃ place, outcome = .error ⟨.tooDeep, place⟩

theorem ReadsAs.of_ok {d : Document} {rest : List UInt8}
    {outcome : Except ReadError (Document × Cursor)} {fits : Prop} (hfits : fits)
    (h : ∃ place, outcome = .ok (d, ⟨rest, place⟩)) : ReadsAs fits d rest outcome :=
  ⟨fun _ => h, fun hnot => absurd hfits hnot⟩

/-- Whether a document fits may be said in other words. -/
theorem ReadsAs.congr {fits same : Prop} {d : Document} {rest : List UInt8}
    {outcome : Except ReadError (Document × Cursor)} (h : ReadsAs fits d rest outcome)
    (hsame : fits ↔ same) : ReadsAs same d rest outcome := by
  rwa [← propext hsame]

/-- A value that begins with a digit is a number. -/
theorem readValue_of_isDigit {first : UInt8} (h : isDigit first = true) (fuel depth : ℕ)
    (rest : List UInt8) (place : Position) :
    readValue (fuel + 1) depth ⟨first :: rest, place⟩ =
      readNumber false ⟨first :: rest, place⟩ := by
  have hspace : Cursor.isSpace first = false := by
    simp only [Cursor.isSpace, Bool.or_eq_false_iff, beq_eq_false_iff_ne]
    refine ⟨⟨⟨?_, ?_⟩, ?_⟩, ?_⟩ <;>
    · rintro rfl
      exact absurd h (by decide)
  rw [readValue.eq_def]
  dsimp only
  rw [skipSpace_of_not_space hspace]
  dsimp only
  split
  case h_1 heq => cases heq
  case h_9 heq =>
    obtain ⟨rfl, -⟩ := List.cons.inj heq
    exact if_pos h
  all_goals
    rename_i heq
    obtain ⟨rfl, -⟩ := List.cons.inj heq
    exact absurd h (by decide)

/-- A whole number is read. -/
theorem readValue_integer {n : ℤ} (hn : Exact (.integer n)) {rest : List UInt8}
    (hstops : StopsNumber rest) (fuel depth : ℕ) (place : Position) :
    ∃ later, readValue (fuel + 1) depth ⟨bytes (chars (.integer n)) ++ rest, place⟩ =
      .ok (.integer n, ⟨rest, later⟩) := by
  rw [Exact] at hn
  rw [chars, integerChars]
  split
  · rename_i hneg
    have hvalue := wholeValue?_negative (n := n.natAbs) (by omega) (by omega)
    have hsame : -(n.natAbs : ℤ) = n := by omega
    rw [hsame] at hvalue
    exact readNumber_digits hvalue hstops (place.after 0x2D)
  · rename_i hneg
    have hvalue := wholeValue?_positive (n := n.natAbs) (by omega)
    have hsame : (n.natAbs : ℤ) = n := by omega
    rw [hsame] at hvalue
    obtain ⟨later, hread⟩ := readNumber_digits hvalue hstops place
    obtain ⟨first, front, hdigits, -⟩ := exists_digitBytes_eq_cons n.natAbs
    have hfirst := isDigit_of_mem_digitBytes first (hdigits ▸ List.mem_cons_self)
    refine ⟨later, ?_⟩
    rw [← digitBytes]
    rw [hdigits, List.cons_append] at hread ⊢
    rw [readValue_of_isDigit hfirst, hread]

/-- A text is read. -/
theorem readValue_text (text : String) (rest : List UInt8) (fuel depth : ℕ) (place : Position) :
    ∃ later, readValue (fuel + 1) depth ⟨bytes (chars (.text text)) ++ rest, place⟩ =
      .ok (.text text, ⟨rest, later⟩) := by
  obtain ⟨later, hread⟩ := readText_quoted text rest (place.after 0x22)
  have hquoted : bytes (chars (.text text)) ++ rest =
      0x22 :: (bytes (text.toList.flatMap escaped ++ ['"']) ++ rest) := rfl
  have hopen : Cursor.isSpace 0x22 = false := rfl
  refine ⟨later, ?_⟩
  rw [hquoted, readValue.eq_def]
  simp only [skipSpace_of_not_space hopen, hread]

/-! ### Lists and objects -/

variable {fuel depth : ℕ} {byte : UInt8} {front rest : List UInt8} {place : Position}

/-- A list that is not empty is read element by element, if there is a level left. -/
theorem readValue_list (hspace : Cursor.isSpace byte = false) (hend : byte ≠ 0x5D) :
    readValue (fuel + 1) (depth + 1) ⟨0x5B :: byte :: front, place⟩ =
      readElements fuel depth [] ⟨byte :: front, place.after 0x5B⟩ := by
  have hopen : Cursor.isSpace 0x5B = false := rfl
  rw [readValue.eq_def]
  simp only [skipSpace_of_not_space hopen, Cursor.skip, skipSpace_of_not_space hspace]

section Elements

variable {reversed : List Document} {element : Document} {c : Cursor}

/-- Behind the last element the list ends. -/
theorem readElements_last
    (h : readValue fuel depth c = .ok (element, ⟨0x5D :: rest, place⟩)) :
    readElements (fuel + 1) depth reversed c =
      .ok (.list (element :: reversed).reverse, ⟨rest, place.after 0x5D⟩) := by
  rw [readElements.eq_def]
  simp only [h]
  rfl

/-- Behind a comma the next element follows. -/
theorem readElements_next
    (h : readValue fuel depth c = .ok (element, ⟨0x2C :: byte :: front, place⟩))
    (hspace : Cursor.isSpace byte = false) (hend : byte ≠ 0x5D) :
    readElements (fuel + 1) depth reversed c =
      readElements fuel depth (element :: reversed) ⟨byte :: front, place.after 0x2C⟩ := by
  have hcomma : Cursor.isSpace 0x2C = false := rfl
  rw [readElements.eq_def]
  simp only [h, skipSpace_of_not_space hcomma, Cursor.skip, skipSpace_of_not_space hspace]

theorem readElements_error {e : ReadError} (h : readValue fuel depth c = .error e) :
    readElements (fuel + 1) depth reversed c = .error e := by
  rw [readElements.eq_def]
  simp only [h]

end Elements

section Members

variable {before : List (String × Document)} {name : String} {value : Document}
  {written : List UInt8} {colon : Position}

/-- Behind the last member the object ends. -/
theorem readMembers_last
    (hname : readText [] written (place.after 0x22) = .ok (name, ⟨0x3A :: front, colon⟩))
    {later : Position}
    (h : readValue fuel depth ⟨front, colon.after 0x3A⟩ = .ok (value, ⟨0x7D :: rest, later⟩)) :
    readMembers (fuel + 1) depth before ⟨0x22 :: written, place⟩ =
      .ok (.object (Entries.insert name value before), ⟨rest, later.after 0x7D⟩) := by
  have hcolon : readColon ⟨0x3A :: front, colon⟩ = .ok ⟨front, colon.after 0x3A⟩ := rfl
  rw [readMembers.eq_def]
  simp only [Cursor.skip, hname, hcolon, h]
  rfl

/-- Behind a comma the next member follows. -/
theorem readMembers_next
    (hname : readText [] written (place.after 0x22) = .ok (name, ⟨0x3A :: front, colon⟩))
    {later : Position} {next : List UInt8}
    (h : readValue fuel depth ⟨front, colon.after 0x3A⟩ =
      .ok (value, ⟨0x2C :: 0x22 :: next, later⟩)) :
    readMembers (fuel + 1) depth before ⟨0x22 :: written, place⟩ =
      readMembers fuel depth (Entries.insert name value before)
        ⟨0x22 :: next, later.after 0x2C⟩ := by
  have hcolon : readColon ⟨0x3A :: front, colon⟩ = .ok ⟨front, colon.after 0x3A⟩ := rfl
  rw [readMembers.eq_def]
  simp only [Cursor.skip, hname, hcolon, h]
  rfl

/-- A member that is too deep fails the object. -/
theorem readMembers_error
    (hname : readText [] written (place.after 0x22) = .ok (name, ⟨0x3A :: front, colon⟩))
    {e : ReadError} (h : readValue fuel depth ⟨front, colon.after 0x3A⟩ = .error e) :
    readMembers (fuel + 1) depth before ⟨0x22 :: written, place⟩ = .error e := by
  have hcolon : readColon ⟨0x3A :: front, colon⟩ = .ok ⟨front, colon.after 0x3A⟩ := rfl
  rw [readMembers.eq_def]
  simp only [Cursor.skip, hname, hcolon, h]

end Members

/-! ### The induction -/

/-- A member as it is written: its name between quotes, a colon, and what follows. -/
theorem bytes_member (name : String) (characters : List Char) :
    bytes (quoted name ++ ':' :: characters) =
      0x22 :: (bytes (name.toList.flatMap escaped ++ ['"']) ++ 0x3A :: bytes characters) := by
  rw [quoted, List.cons_append, Text.bytes_cons, Text.bytes_append]
  rfl

/-- The text of a list that is not empty: a bracket and its elements. -/
theorem bytes_list (x : Document) (xs : List Document) (rest : List UInt8) :
    bytes (chars (.list (x :: xs))) ++ rest =
      0x5B :: (bytes (chars x ++ elementChars xs) ++ rest) := by
  rw [chars]
  rfl

/-- The text of an object that is not empty: a brace and its members. -/
theorem bytes_object (name : String) (value : Document) (others : List (String × Document))
    (rest : List UInt8) :
    bytes (chars (.object ((name, value) :: others))) ++ rest =
      0x7B :: (bytes (quoted name ++ ':' :: (chars value ++ memberChars others)) ++ rest) := by
  rw [chars]
  rfl

/-- A list is read as its elements are read with one level less. -/
theorem readValue_list_chars {elements : List Document} {rest : List UInt8} (fuel depth : ℕ)
    (place : Position)
    (h : ∀ x xs, elements = x :: xs → ∀ level, ReadsAs (depthElements elements ≤ level)
      (.list (sortedElements elements)) rest
      (readElements fuel level []
        ⟨bytes (chars x ++ elementChars xs) ++ rest, place.after 0x5B⟩)) :
    ReadsAs ((list elements).depth ≤ depth) (.list (sortedElements elements)) rest
      (readValue (fuel + 1) depth ⟨bytes (chars (.list elements)) ++ rest, place⟩) := by
  cases depth with
  | zero =>
      refine ⟨fun hfits => absurd hfits (by rw [Document.depth]; omega), fun _ => ?_⟩
      cases elements <;> exact ⟨_, rfl⟩
  | succ depth =>
      cases elements with
      | nil => exact .of_ok (Nat.succ_le_succ (Nat.zero_le _)) ⟨_, rfl⟩
      | cons x xs =>
          obtain ⟨byte, front, hfront, hspace, hend, -⟩ := bytes_chars_eq_cons x
          have hbegins : bytes (chars x ++ elementChars xs) ++ rest =
              byte :: (front ++ (bytes (elementChars xs) ++ rest)) := by
            rw [Text.bytes_append, hfront, List.append_assoc, List.cons_append]
          rw [bytes_list, hbegins, readValue_list hspace hend, ← hbegins]
          refine (h x xs rfl depth).congr ?_
          rw [Document.depth]
          omega

/-- An object is read as its members are read with one level less. -/
theorem readValue_object_chars {members : List (String × Document)} {rest : List UInt8}
    (fuel depth : ℕ) (place : Position)
    (h : ∀ name value others, members = (name, value) :: others →
      ∀ level, ReadsAs (depthMembers members ≤ level) (.object (insertMembers [] members)) rest
        (readMembers fuel level []
          ⟨bytes (quoted name ++ ':' :: (chars value ++ memberChars others)) ++ rest,
            place.after 0x7B⟩)) :
    ReadsAs ((object members).depth ≤ depth) (.object (insertMembers [] members)) rest
      (readValue (fuel + 1) depth ⟨bytes (chars (.object members)) ++ rest, place⟩) := by
  cases depth with
  | zero =>
      refine ⟨fun hfits => absurd hfits (by rw [Document.depth]; omega), fun _ => ?_⟩
      cases members <;> exact ⟨_, rfl⟩
  | succ depth =>
      cases members with
      | nil => exact .of_ok (Nat.succ_le_succ (Nat.zero_le _)) ⟨_, rfl⟩
      | cons member others =>
          obtain ⟨name, value⟩ := member
          have hopen : readValue (fuel + 1) (depth + 1)
              ⟨0x7B :: (bytes (quoted name ++ ':' :: (chars value ++ memberChars others)) ++
                rest), place⟩ =
              readMembers fuel depth []
                ⟨bytes (quoted name ++ ':' :: (chars value ++ memberChars others)) ++ rest,
                  place.after 0x7B⟩ := by
            rw [bytes_member]
            rfl
          rw [bytes_object, hopen]
          refine (h name value others rfl depth).congr ?_
          rw [Document.depth]
          omega

mutual

/-- **The text of a document is read as the document sorted**, if it fits into the levels that are
left. -/
theorem readValue_chars (d : Document) (hd : Exact d) {rest : List UInt8}
    (hstops : StopsNumber rest) (fuel depth : ℕ) (place : Position)
    (hfuel : 2 * (bytes (chars d) ++ rest).length < fuel) :
    ReadsAs (d.depth ≤ depth) d.sorted rest
      (readValue fuel depth ⟨bytes (chars d) ++ rest, place⟩) := by
  cases fuel with
  | zero => exact absurd hfuel (Nat.not_lt_zero _)
  | succ fuel =>
  match hshape : d with
  | .null => exact .of_ok (Nat.zero_le _) ⟨_, rfl⟩
  | .bool true => exact .of_ok (Nat.zero_le _) ⟨_, rfl⟩
  | .bool false => exact .of_ok (Nat.zero_le _) ⟨_, rfl⟩
  | .integer n => exact .of_ok (Nat.zero_le _) (readValue_integer hd hstops fuel depth place)
  | .real x => exact absurd hd id
  | .text content => exact .of_ok (Nat.zero_le _) (readValue_text content rest fuel depth place)
  | .list elements =>
      rw [Exact] at hd
      rw [sorted]
      refine readValue_list_chars fuel depth place fun x xs helements level => ?_
      rw [helements, bytes_list, List.length_cons] at hfuel
      subst helements
      exact readElements_chars x xs hd [] rest fuel level (place.after 0x5B) (by omega)
  | .object members =>
      rw [Exact] at hd
      rw [sorted]
      refine readValue_object_chars fuel depth place fun name value others hmembers level => ?_
      rw [hmembers, bytes_object, List.length_cons] at hfuel
      subst hmembers
      exact readMembers_chars name value others hd [] rest fuel level (place.after 0x7B) (by omega)
termination_by sizeOf d
decreasing_by
  · rw [hshape, list.sizeOf_spec]
    omega
  · rw [hshape, object.sizeOf_spec]
    omega

/-- Elements are read behind those read before. They are collected in reverse, so the statement is
about any elements that were collected already. -/
theorem readElements_chars (x : Document) (xs : List Document)
    (hd : ExactElements (x :: xs)) (reversed : List Document) (rest : List UInt8)
    (fuel depth : ℕ) (place : Position)
    (hfuel : 2 * (bytes (chars x ++ elementChars xs) ++ rest).length + 1 < fuel) :
    ReadsAs (depthElements (x :: xs) ≤ depth)
      (.list (reversed.reverse ++ sortedElements (x :: xs))) rest
      (readElements fuel depth reversed ⟨bytes (chars x ++ elementChars xs) ++ rest, place⟩) := by
  cases fuel with
  | zero => exact absurd hfuel (Nat.not_lt_zero _)
  | succ fuel =>
  rw [ExactElements] at hd
  rw [Text.bytes_append, List.append_assoc] at hfuel ⊢
  have hvalue := readValue_chars x hd.1 (stopsNumber_elementChars xs rest) fuel depth place
    (by omega)
  by_cases hfirst : x.depth ≤ depth
  · obtain ⟨later, hok⟩ := hvalue.ok hfirst
    match hshape : xs with
    | [] =>
        refine .of_ok ?_ ⟨later.after 0x5D, ?_⟩
        · rw [depthElements, depthElements]
          omega
        · rw [readElements_last hok, List.reverse_cons, sortedElements, sortedElements]
          rfl
    | y :: ys =>
        obtain ⟨byte, front, hfront, hspace, hend, -⟩ := bytes_chars_eq_cons y
        have hbytes : bytes (elementChars (y :: ys)) ++ rest =
            0x2C :: (bytes (chars y ++ elementChars ys) ++ rest) := by
          rw [elementChars]
          rfl
        have hbegins : bytes (chars y ++ elementChars ys) ++ rest =
            byte :: (front ++ (bytes (elementChars ys) ++ rest)) := by
          rw [Text.bytes_append, hfront, List.append_assoc, List.cons_append]
        rw [List.length_append, hbytes, List.length_cons] at hfuel
        have helements := readElements_chars y ys hd.2 (x.sorted :: reversed) rest fuel depth
          (later.after 0x2C) (by omega)
        rw [hbytes, hbegins] at hok ⊢
        rw [readElements_next hok hspace hend, ← hbegins]
        rw [List.reverse_cons, List.append_assoc, List.singleton_append,
          ← sortedElements] at helements
        refine helements.congr ?_
        rw [depthElements.eq_def (x :: y :: ys)]
        dsimp only
        omega
  · obtain ⟨later, hdeep⟩ := hvalue.tooDeep hfirst
    refine ⟨fun h => ?_, fun _ => ⟨later, readElements_error hdeep⟩⟩
    rw [depthElements] at h
    omega
termination_by sizeOf (x :: xs)
decreasing_by
  · rw [List.cons.sizeOf_spec]
    omega
  · rw [List.cons.sizeOf_spec x, hshape]
    omega

/-- Members are read behind those read before, which they are inserted into. The induction needs any
members that were read already. -/
theorem readMembers_chars (name : String) (value : Document) (others : List (String × Document))
    (hd : ExactMembers ((name, value) :: others)) (before : List (String × Document))
    (rest : List UInt8) (fuel depth : ℕ) (place : Position)
    (hfuel : 2 * (bytes (quoted name ++ ':' :: (chars value ++ memberChars others)) ++
      rest).length + 1 < fuel) :
    ReadsAs (depthMembers ((name, value) :: others) ≤ depth)
      (.object (insertMembers before ((name, value) :: others))) rest
      (readMembers fuel depth before
        ⟨bytes (quoted name ++ ':' :: (chars value ++ memberChars others)) ++ rest, place⟩) := by
  cases fuel with
  | zero => exact absurd hfuel (Nat.not_lt_zero _)
  | succ fuel =>
  rw [ExactMembers] at hd
  rw [insertMembers]
  have hwritten : bytes (quoted name ++ ':' :: (chars value ++ memberChars others)) ++ rest =
      0x22 :: (bytes (name.toList.flatMap escaped ++ ['"']) ++
        0x3A :: (bytes (chars value) ++ (bytes (memberChars others) ++ rest))) := by
    rw [bytes_member, Text.bytes_append (chars value)]
    simp only [List.cons_append, List.append_assoc]
  rw [hwritten] at hfuel ⊢
  simp only [List.length_cons, List.length_append] at hfuel
  obtain ⟨colon, hname⟩ := readText_quoted name
    (0x3A :: (bytes (chars value) ++ (bytes (memberChars others) ++ rest))) (place.after 0x22)
  have hvalue := readValue_chars value hd.1 (stopsNumber_memberChars others rest) fuel depth
    (colon.after 0x3A) (by
      simp only [List.length_append]
      omega)
  by_cases hfirst : value.depth ≤ depth
  · obtain ⟨later, hok⟩ := hvalue.ok hfirst
    match hshape : others with
    | [] =>
        refine .of_ok ?_ ⟨later.after 0x7D, ?_⟩
        · rw [depthMembers, depthMembers]
          omega
        · rw [readMembers_last hname hok, insertMembers]
          rfl
    | (next, second) :: others =>
        have hbytes : bytes (memberChars ((next, second) :: others)) ++ rest =
            0x2C :: (bytes (quoted next ++ ':' :: (chars second ++ memberChars others)) ++
              rest) := by
          rw [memberChars]
          rfl
        have hbegins : bytes (quoted next ++ ':' :: (chars second ++ memberChars others)) ++ rest =
            0x22 :: (bytes (next.toList.flatMap escaped ++ ['"']) ++
              0x3A :: bytes (chars second ++ memberChars others) ++ rest) := by
          rw [bytes_member, List.cons_append]
        have hlength := congrArg List.length hbytes
        rw [List.length_append, List.length_cons] at hlength
        have hmembers := readMembers_chars next second others hd.2
          (Entries.insert name value.sorted before) rest fuel depth (later.after 0x2C) (by omega)
        rw [hbytes, hbegins] at hname hok ⊢
        rw [readMembers_next hname hok, ← hbegins]
        refine hmembers.congr ?_
        rw [depthMembers.eq_def ((name, value) :: (next, second) :: others)]
        dsimp only
        omega
  · obtain ⟨later, hdeep⟩ := hvalue.tooDeep hfirst
    refine ⟨fun h => ?_, fun _ => ⟨later, readMembers_error hname hdeep⟩⟩
    rw [depthMembers] at h
    omega
termination_by sizeOf ((name, value) :: others)
decreasing_by
  · rw [List.cons.sizeOf_spec, Prod.mk.sizeOf_spec]
    omega
  · rw [List.cons.sizeOf_spec (name, value), hshape, Prod.mk.sizeOf_spec]
    omega

end

/-! ### With white space around -/

/-- A value is read from where the white space before it ends. -/
theorem readValue_congr {c d : Cursor} (h : c.skipSpace = d.skipSpace) (fuel depth : ℕ) :
    readValue (fuel + 1) depth c = readValue (fuel + 1) depth d := by
  rw [readValue.eq_def, readValue.eq_def]
  dsimp only
  rw [h]

theorem stopsNumber_of_isSpace {after : List UInt8}
    (h : ∀ byte ∈ after, Cursor.isSpace byte = true) : StopsNumber after := by
  intro byte hbyte
  have hspace := h byte (List.mem_of_mem_head? hbyte)
  simp only [Cursor.isSpace, Bool.or_eq_true, beq_iff_eq] at hspace
  rcases hspace with ((rfl | rfl) | rfl) | rfl <;> decide

theorem skipSpace_rest_of_isSpace {after : List UInt8}
    (h : ∀ byte ∈ after, Cursor.isSpace byte = true) (place : Position) :
    (Cursor.skipSpace ⟨after, place⟩).rest = [] :=
  List.dropWhile_eq_nil_iff.mpr h

/-- **Reading undoes writing** up to the order of members. The text of a document, with white space
before and behind it, is read as the document sorted if its lists and objects nest as deep as
allowed; otherwise it is too deep. -/
theorem read_render_sorted {d : Document} (hd : Exact d) {before after : List UInt8}
    (hbefore : ∀ byte ∈ before, Cursor.isSpace byte = true)
    (hafter : ∀ byte ∈ after, Cursor.isSpace byte = true) :
    (d.depth ≤ maxDepth → read (before ++ (Text.encode d.render ++ after)) = .ok d.sorted) ∧
      (maxDepth < d.depth →
        ∃ place, read (before ++ (Text.encode d.render ++ after)) = .error ⟨.tooDeep, place⟩) := by
  rw [render, Text.encode_ofList]
  have hvalue : ReadsAs (d.depth ≤ maxDepth) d.sorted after
      (readValue (2 * (before ++ (bytes (chars d) ++ after)).length + 2) maxDepth
        (.start (before ++ (bytes (chars d) ++ after)))) := by
    rw [Cursor.start, readValue_congr (skipSpace_append hbefore _ _)]
    refine readValue_chars d hd (stopsNumber_of_isSpace hafter) _ _ _ ?_
    simp only [List.length_append]
    omega
  constructor
  · intro hfits
    obtain ⟨place, hok⟩ := hvalue.ok hfits
    rw [read, hok]
    dsimp only
    rw [skipSpace_rest_of_isSpace hafter]
    rfl
  · intro hdeep
    obtain ⟨place, hdeep⟩ := hvalue.tooDeep (Nat.not_le_of_gt hdeep)
    exact ⟨place, by rw [read, hdeep]⟩

/-- **Reading undoes writing.** The text of a document, with white space before and behind it, is
read as the document if its lists and objects nest as deep as allowed; otherwise it is too deep. -/
theorem read_render {d : Document} (hd : WellFormed d) (hreal : RealFree d)
    {before after : List UInt8} (hbefore : ∀ byte ∈ before, Cursor.isSpace byte = true)
    (hafter : ∀ byte ∈ after, Cursor.isSpace byte = true) :
    (d.depth ≤ maxDepth → read (before ++ (Text.encode d.render ++ after)) = .ok d) ∧
      (maxDepth < d.depth →
        ∃ place, read (before ++ (Text.encode d.render ++ after)) = .error ⟨.tooDeep, place⟩) := by
  have hread := read_render_sorted (exact_of_wellFormed d hd hreal) hbefore hafter
  rwa [sorted_of_wellFormed d hd] at hread

end CachedParameters.Document
