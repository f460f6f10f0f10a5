import Mathlib.Data.List.TakeWhile
import Mathlib.Order.Monotone.Basic
import Mooncake.Rdma.MemoryLocation

/-!
# The text of a list of nodes

What `buildSegmentsLocation` writes is read back.  The reader accepts more than the
documented format, and it stores the page size and the first nodes before it meets a later
fault.
-/

namespace Mooncake.Rdma

open List

/-! ## Numbers -/

def Decimal (digits : List Char) : Prop :=
  digits ≠ [] ∧ ∀ char ∈ digits, char.isDigit = true

/-- Blanks, a sign or none, digits, and behind them no further digit. -/
inductive Numeral : List Char → Bool → Nat → Prop where
  | mk {blanks sign digits rest : List Char} (blank : ∀ char ∈ blanks, isSpace char = true)
      (signed : sign = [] ∨ sign = ['+'] ∨ sign = ['-']) (plain : Decimal digits)
      (ends : ∀ char ∈ rest.head?, char.isDigit = false) :
      Numeral (blanks ++ (sign ++ (digits ++ rest))) (sign = ['-']) (decimalValue digits)

/-- A numeral for a machine word; with a minus it stands for the word that is negated. -/
inductive PageText (text : List Char) : Nat → Prop where
  | mk {negative : Bool} {magnitude : Nat} (numeral : Numeral text negative magnitude)
      (fits : magnitude < 2 ^ 64) :
      PageText text (if negative then (2 ^ 64 - magnitude) % 2 ^ 64 else magnitude)

/-- A numeral for an `int`. -/
inductive NodeText (text : List Char) (node : Int) : Prop where
  | natural {magnitude : Nat} (numeral : Numeral text false magnitude) (value : node = magnitude)
      (fits : magnitude < 2 ^ 31)
  | negative {magnitude : Nat} (numeral : Numeral text true magnitude) (value : node = -magnitude)
      (fits : magnitude ≤ 2 ^ 31)

variable {text digits token : List Char} {node : Int} {tokens : List (List Char × Int)}
  {info : SegmentsLocationInfo}

theorem isSpace_of_isDigit {char : Char} (digit : char.isDigit = true) : isSpace char = false := by
  have bounds : 48 ≤ char.toNat ∧ char.toNat ≤ 57 := by
    simpa [Char.isDigit, UInt32.le_iff_toNat_le] using digit
  simp only [isSpace, Bool.or_eq_false_iff, Bool.and_eq_false_iff, decide_eq_false_iff_not]
  omega

theorem takeWhile_isDigit {rest : List Char} (all : ∀ char ∈ digits, char.isDigit = true)
    (ends : ∀ char ∈ rest.head?, char.isDigit = false) :
    (digits ++ rest).takeWhile Char.isDigit = digits := by
  rw [takeWhile_append_of_pos all]
  cases rest with
  | nil => simp
  | cons char others => simp [ends char rfl]

theorem readSign_of_digits {sign rest : List Char}
    (signed : sign = [] ∨ sign = ['+'] ∨ sign = ['-']) (plain : Decimal digits) :
    (sign ++ (digits ++ rest)).dropWhile isSpace = sign ++ (digits ++ rest) ∧
      readSign (sign ++ (digits ++ rest)) = (decide (sign = ['-']), digits ++ rest) := by
  obtain ⟨first, others, rfl⟩ := exists_cons_of_ne_nil plain.1
  have digit := plain.2 first mem_cons_self
  rcases signed with rfl | rfl | rfl
  · refine ⟨by simp [isSpace_of_isDigit digit], ?_⟩
    rw [nil_append, cons_append, readSign]
    · rfl
    · intro _ same
      cases (List.cons.inj same).1 ▸ digit
    · intro _ same
      cases (List.cons.inj same).1 ▸ digit
  · exact ⟨rfl, rfl⟩
  · exact ⟨rfl, rfl⟩

theorem readSign_spec (text : List Char) :
    ∃ sign, (sign = [] ∨ sign = ['+'] ∨ sign = ['-']) ∧ text = sign ++ (readSign text).2 ∧
      (readSign text).1 = decide (sign = ['-']) := by
  unfold readSign
  split
  · exact ⟨['-'], .inr (.inr rfl), rfl, rfl⟩
  · exact ⟨['+'], .inr (.inl rfl), rfl, rfl⟩
  · exact ⟨[], .inl rfl, rfl, rfl⟩

/-- The readers of the C library accept exactly the numerals. -/
theorem readInteger_eq_some_iff {negative : Bool} {magnitude : Nat} :
    readInteger text = some (negative, magnitude) ↔ Numeral text negative magnitude := by
  constructor
  · intro read
    obtain ⟨sign, signed, split, minus⟩ := readSign_spec (text.dropWhile isSpace)
    unfold readInteger at read
    simp only [Option.ite_none_left_eq_some, Option.some.injEq, Prod.mk.injEq] at read
    obtain ⟨nonempty, rfl, rfl⟩ := read
    generalize (readSign (text.dropWhile isSpace)).2 = rest at split nonempty ⊢
    have whole : text = text.takeWhile isSpace ++
        (sign ++ (rest.takeWhile Char.isDigit ++ rest.dropWhile Char.isDigit)) := by
      rw [takeWhile_append_dropWhile, ← split, takeWhile_append_dropWhile]
    rw [minus]
    nth_rewrite 1 [whole]
    refine .mk (fun char inside => mem_takeWhile_imp inside) signed
      ⟨by simpa using nonempty, fun char inside => mem_takeWhile_imp inside⟩ ?_
    intro char first
    have stops := List.head?_dropWhile_not Char.isDigit rest
    rw [Option.mem_def.mp first] at stops
    simpa using stops
  · rintro ⟨blank, signed, plain, ends⟩
    obtain ⟨unblank, sign⟩ := @readSign_of_digits _ _ _ signed plain
    unfold readInteger
    rw [List.dropWhile_append_of_pos blank, unblank, sign]
    simp only [takeWhile_isDigit plain.2 ends, List.isEmpty_iff, plain.1, if_false]

theorem stoull_eq_some_iff {value : Nat} : stoull text = some value ↔ PageText text value := by
  unfold stoull
  constructor
  · cases read : readInteger text with
    | none => simp
    | some number =>
      simp only [Option.ite_none_left_eq_some, Option.some.injEq, Nat.not_le]
      rintro ⟨fits, rfl⟩
      exact .mk (readInteger_eq_some_iff.mp read) fits
  · rintro ⟨numeral, fits⟩
    rw [readInteger_eq_some_iff.mpr numeral]
    exact if_neg (Nat.not_le.mpr fits)

theorem stoi_eq_some_iff : stoi text = some node ↔ NodeText text node := by
  unfold stoi
  constructor
  · cases read : readInteger text with
    | none => simp
    | some number =>
      obtain ⟨negative, magnitude⟩ := number
      have numeral := readInteger_eq_some_iff.mp read
      simp only [Option.ite_none_right_eq_some, Option.some.injEq]
      rintro ⟨fits, rfl⟩
      cases negative with
      | false => exact .natural numeral rfl (by simpa using fits.2)
      | true => exact .negative numeral rfl (by simpa using fits.1)
  · rintro (⟨numeral, rfl, fits⟩ | ⟨numeral, rfl, fits⟩)
    · rw [readInteger_eq_some_iff.mpr numeral]
      exact if_pos ⟨by simp, by simpa using fits⟩
    · rw [readInteger_eq_some_iff.mpr numeral]
      exact if_pos ⟨by simpa using fits, by simp; omega⟩

/-! ## The documented format -/

/-- A decimal integer that fits an `int`. -/
inductive IntToken : List Char → Int → Prop where
  | natural {digits : List Char} (plain : Decimal digits) (small : decimalValue digits < 2 ^ 31) :
      IntToken digits (decimalValue digits)
  | negative {digits : List Char} (plain : Decimal digits) (small : decimalValue digits ≤ 2 ^ 31) :
      IntToken ('-' :: digits) (-(decimalValue digits : Int))

/-- The name is in the documented format, with this page size and these integers. -/
structure Writes (name : String) (page : List Char) (tokens : List (List Char × Int)) : Prop where
  text : name.toList = kSegmentsLocationPrefix.toList ++
    (page ++ ':' :: [','].intercalate (tokens.map Prod.fst))
  decimal : Decimal page
  fits : decimalValue page < 2 ^ 64
  integers : ∀ token ∈ tokens, IntToken token.1 token.2
  nonempty : tokens ≠ []

def Documented (name : String) : Prop :=
  ∃ page tokens, Writes name page tokens

theorem Decimal.not_mem (plain : Decimal digits) {char : Char} (other : char.isDigit = false) :
    char ∉ digits := by
  intro inside
  rw [plain.2 char inside] at other
  cases other

theorem Decimal.numeral (plain : Decimal digits) :
    Numeral digits false (decimalValue digits) ∧
      Numeral ('-' :: digits) true (decimalValue digits) := by
  have unsigned := @Numeral.mk [] [] digits [] (by simp) (.inl rfl) plain (by simp)
  have signed := @Numeral.mk [] ['-'] digits [] (by simp) (.inr (.inr rfl)) plain (by simp)
  simpa using And.intro unsigned signed

theorem IntToken.nodeText (reads : IntToken token node) : NodeText token node := by
  cases reads with
  | natural plain small => exact .natural plain.numeral.1 rfl small
  | negative plain small => exact .negative plain.numeral.2 rfl small

theorem IntToken.no_comma (reads : IntToken token node) : ',' ∉ token := by
  cases reads with
  | natural plain _ => exact plain.not_mem rfl
  | negative plain _ => simp [@Decimal.not_mem _ plain ',' rfl]

theorem IntToken.ne_nil (reads : IntToken token node) : token ≠ [] := by
  cases reads with
  | natural plain _ => exact plain.1
  | negative _ _ => simp

/-! ## Page size and nodes -/

/-- The name goes on with a text without colons, a colon and a further text. -/
structure Divides (name : String) (page nodes : List Char) : Prop where
  text : name.toList = kSegmentsLocationPrefix.toList ++ (page ++ ':' :: nodes)
  colonless : ':' ∉ page

theorem readPage_of_divides {name : String} {page nodes : List Char}
    (divides : Divides name page nodes) :
    readPage name = (stoull page).map fun pageSize => (pageSize, nodes) := by
  have plain : ∀ char ∈ page, decide (char ≠ ':') = true := by
    intro char inside
    simpa using fun same : char = ':' => divides.colonless (same ▸ inside)
  have body : name.toList.drop kSegmentsLocationPrefix.length = page ++ ':' :: nodes := by
    rw [divides.text]
    rfl
  unfold readPage
  rw [if_pos (by simp [divides.text]), body]
  simp only [dropWhile_append_of_pos plain, takeWhile_append_of_pos plain]
  simp

theorem readPage_eq_some_iff {name : String} {pageSize : Nat} {nodes : List Char} :
    readPage name = some (pageSize, nodes) ↔
      ∃ page, Divides name page nodes ∧ PageText page pageSize := by
  constructor
  · intro read
    unfold readPage at read
    split at read
    · rename_i begins
      obtain ⟨body, text⟩ := isPrefixOf_iff_prefix.mp begins
      have rest : name.toList.drop kSegmentsLocationPrefix.length = body := by
        rw [← text]
        rfl
      rw [rest] at read
      dsimp only at read
      cases behind : body.dropWhile (· ≠ ':') with
      | nil =>
        rw [behind] at read
        cases read
      | cons colon others =>
        rw [behind] at read
        have same : colon = ':' := by
          have stops := head?_dropWhile_not (fun char => decide (char ≠ ':')) body
          rw [behind] at stops
          simpa using stops
        have whole : body = body.takeWhile (· ≠ ':') ++ ':' :: others := by
          rw [same] at behind
          rw [← behind, takeWhile_append_dropWhile]
        obtain ⟨value, number, equal⟩ := Option.map_eq_some_iff.mp read
        cases equal
        refine ⟨body.takeWhile (· ≠ ':'), ⟨by rw [← text, ← whole], fun inside => ?_⟩,
          stoull_eq_some_iff.mp number⟩
        simpa using mem_takeWhile_imp inside
    · cases read
  · rintro ⟨page, divides, value⟩
    rw [readPage_of_divides divides, stoull_eq_some_iff.mpr value]
    rfl

/-- Items without commas, whose text with commas between them is the given one. -/
structure Items (text : List Char) (items : List (List Char)) : Prop where
  joined : text = [','].intercalate items
  commaless : ∀ item ∈ items, ',' ∉ item
  nonempty : items ≠ []

theorem Items.splitOn {items : List (List Char)} (listed : Items text items) :
    text.splitOn ',' = items := by
  rw [listed.joined]
  exact splitOn_intercalate ',' listed.commaless listed.nonempty

theorem items_splitOn (text : List Char) : Items text (text.splitOn ',') where
  joined := (intercalate_splitOn ',').symm
  commaless := by
    induction text with
    | nil => simp
    | cons char rest ih =>
      rw [splitOn_cons_eq_if_modifyHead]
      split
      · exact forall_mem_cons.mpr ⟨not_mem_nil, ih⟩
      · rename_i other
        obtain ⟨first, others, items⟩ := exists_cons_of_ne_nil (splitOn_ne_nil ',' rest)
        rw [items, forall_mem_cons] at ih
        rw [items]
        refine forall_mem_cons.mpr ⟨?_, ih.2⟩
        rw [mem_cons, not_or]
        exact ⟨fun same => other (by simp [← same]), ih.1⟩
  nonempty := splitOn_ne_nil ',' text

/-- The items begin with empty ones and numerals of the nodes, and go on with one that is
neither. -/
inductive WrongItem (items : List (List Char)) (nodes : List Int) : Prop where
  | mk {front back : List (List Char)} {item : List Char} (place : items = front ++ item :: back)
      (nonempty : item ≠ []) (unread : ∀ node, ¬ NodeText item node)
      (read : List.Forall₂ NodeText (front.filter fun item => !item.isEmpty) nodes)

section Items

variable {item : List Char} {items : List (List Char)} {nodes : List Int}

theorem NodeText.ne_nil (numeral : NodeText token node) : token ≠ [] := by
  rintro rfl
  cases stoi_eq_some_iff.mpr numeral

theorem wrongItem_nil_cons : WrongItem ([] :: items) nodes ↔ WrongItem items nodes := by
  constructor
  · rintro ⟨place, nonempty, unread, read⟩
    rcases cons_eq_append_iff.mp place with ⟨rfl, same⟩ | ⟨front, rfl, rest⟩
    · cases same
      exact absurd rfl nonempty
    · exact ⟨rest, nonempty, unread, read⟩
  · rintro ⟨rfl, nonempty, unread, read⟩
    exact ⟨(cons_append ..).symm, nonempty, unread, read⟩

theorem wrongItem_unread (nonempty : item ≠ []) (unread : ∀ node, ¬ NodeText item node) :
    WrongItem (item :: items) nodes ↔ nodes = [] := by
  constructor
  · rintro ⟨place, -, -, read⟩
    rcases cons_eq_append_iff.mp place with ⟨rfl, -⟩ | ⟨front, rfl, -⟩
    · cases read
      rfl
    · rw [filter_cons_of_pos (by simpa using nonempty)] at read
      cases read with
      | cons numeral _ => exact absurd numeral (unread _)
  · rintro rfl
    exact @WrongItem.mk _ _ [] items item rfl nonempty unread .nil

theorem wrongItem_node (numeral : NodeText item node) :
    WrongItem (item :: items) nodes ↔
      ∃ others, nodes = node :: others ∧ WrongItem items others := by
  constructor
  · rintro ⟨place, nonempty, unread, read⟩
    rcases cons_eq_append_iff.mp place with ⟨rfl, same⟩ | ⟨front, rfl, rest⟩
    · cases same
      exact absurd numeral (unread node)
    · rw [filter_cons_of_pos (by simpa using numeral.ne_nil)] at read
      cases read with
      | cons numeral' others =>
        cases (stoi_eq_some_iff.mpr numeral).symm.trans (stoi_eq_some_iff.mpr numeral')
        exact ⟨_, rfl, rest, nonempty, unread, others⟩
  · rintro ⟨others, rfl, rfl, nonempty, unread, read⟩
    refine ⟨(cons_append ..).symm, nonempty, unread, ?_⟩
    rw [filter_cons_of_pos (by simpa using numeral.ne_nil)]
    exact .cons numeral read

/-- The nodes before the first wrong item are stored. -/
theorem storeNodes_wrong_iff : storeNodes items = (false, nodes) ↔ WrongItem items nodes := by
  induction items generalizing nodes with
  | nil =>
    refine iff_of_false (by simp [storeNodes]) ?_
    rintro ⟨place, -, -, -⟩
    simp at place
  | cons item rest ih =>
    rw [storeNodes]
    by_cases empty : item = []
    · rw [empty, wrongItem_nil_cons]
      exact ih
    · rw [if_neg (by simpa using empty)]
      cases number : stoi item with
      | none =>
        have unread : ∀ node, ¬ NodeText item node := fun node numeral => by
          rw [stoi_eq_some_iff.mpr numeral] at number
          cases number
        rw [wrongItem_unread empty unread, Prod.mk.injEq, eq_comm (a := [])]
        exact and_iff_right rfl
      | some node =>
        rw [wrongItem_node (stoi_eq_some_iff.mp number)]
        constructor
        · intro stored
          obtain ⟨wrong, rfl⟩ := Prod.mk.injEq .. ▸ stored
          exact ⟨_, rfl, ih.mp (Prod.ext wrong rfl)⟩
        · rintro ⟨others, rfl, wrong⟩
          simp [ih.mpr wrong]

theorem storeNodes_nothing_iff : storeNodes items = (true, []) ↔ ∀ item ∈ items, item = [] := by
  induction items with
  | nil => simp [storeNodes]
  | cons item rest ih =>
    rw [storeNodes, forall_mem_cons]
    by_cases empty : item = []
    · rw [if_pos (by simp [empty]), ih]
      exact (and_iff_right empty).symm
    · rw [if_neg (by simpa using empty)]
      cases stoi item <;> simp [empty]

end Items

theorem storeNodes_of_tokens (reads : ∀ token ∈ tokens, IntToken token.1 token.2) :
    storeNodes (tokens.map Prod.fst) = (true, tokens.map Prod.snd) := by
  induction tokens with
  | nil => rfl
  | cons token rest ih =>
    obtain ⟨first, others⟩ := forall_mem_cons.mp reads
    simp [storeNodes, first.ne_nil, stoi_eq_some_iff.mpr first.nodeText, ih others]

/-- A text in the documented format is read as what it stands for. -/
theorem Writes.parsed {name : String} {page : List Char} (writes : Writes name page tokens)
    (info : SegmentsLocationInfo) :
    parseSegmentsLocation name info = (true, ⟨decimalValue page, tokens.map Prod.snd⟩) := by
  have listed : Items ([','].intercalate (tokens.map Prod.fst)) (tokens.map Prod.fst) := by
    refine ⟨rfl, fun token listed => ?_, by simpa using writes.nonempty⟩
    obtain ⟨pair, inside, rfl⟩ := mem_map.mp listed
    exact (writes.integers pair inside).no_comma
  have begins : readPage name = some (decimalValue page, [','].intercalate (tokens.map Prod.fst)) :=
    readPage_eq_some_iff.mpr ⟨page, ⟨writes.text, writes.decimal.not_mem rfl⟩,
      .mk writes.decimal.numeral.1 writes.fits⟩
  simp [parseSegmentsLocation, begins, listed.splitOn, storeNodes_of_tokens writes.integers,
    writes.nonempty]

/-- No page size can be read: the prefix or the colon is missing, or there is no numeral for a
machine word before the colon. -/
def Pageless (name : String) : Prop :=
  ∀ page nodes pageSize, Divides name page nodes → ¬ PageText page pageSize

/-- The page size can be read, but no list of nodes behind it, and the info holds the page size
and the nodes before the first wrong item, or none where all items are empty. -/
inductive RefusedLeaving (name : String) (info : SegmentsLocationInfo) : Prop where
  | mk {page text : List Char} {items : List (List Char)} (divides : Divides name page text)
      (pageSize : PageText page info.pageSize) (listed : Items text items)
      (refused : WrongItem items info.numaNodes ∨
        (∀ item ∈ items, item = []) ∧ info.numaNodes = [])

/-- A text that is refused behind its page size leaves what stands before its fault. -/
theorem parseSegmentsLocation_refuses_iff {name : String} {before : SegmentsLocationInfo}
    {pageSize : Nat} {nodes : List Char} (read : readPage name = some (pageSize, nodes)) :
    parseSegmentsLocation name before = (false, info) ↔ RefusedLeaving name info := by
  obtain ⟨page, divides, number⟩ := readPage_eq_some_iff.mp read
  simp only [parseSegmentsLocation, read]
  constructor
  · intro refused
    obtain ⟨failed, rfl⟩ := Prod.mk.injEq .. ▸ refused
    refine ⟨divides, number, items_splitOn nodes, ?_⟩
    rw [← storeNodes_wrong_iff, ← storeNodes_nothing_iff]
    cases wrong : (storeNodes (nodes.splitOn ',')).1 with
    | false => exact .inl (Prod.ext wrong rfl)
    | true =>
      have empty : (storeNodes (nodes.splitOn ',')).2 = [] := by simpa [wrong] using failed
      exact .inr ⟨Prod.ext wrong empty, empty⟩
  · rintro ⟨divides', number', listed, refused⟩
    cases (readPage_eq_some_iff.mpr ⟨_, divides', number'⟩).symm.trans read
    rw [listed.splitOn]
    rcases refused with wrong | ⟨empty, none⟩
    · rw [storeNodes_wrong_iff.mpr wrong]
      rfl
    · obtain ⟨_, _⟩ := info
      cases none
      rw [storeNodes_nothing_iff.mpr empty]
      rfl

theorem readPage_eq_none_iff {name : String} : readPage name = none ↔ Pageless name := by
  constructor
  · intro none page nodes pageSize divides number
    rw [readPage_eq_some_iff.mpr ⟨page, divides, number⟩] at none
    cases none
  · intro pageless
    cases read : readPage name with
    | none => rfl
    | some pair =>
      obtain ⟨page, divides, number⟩ := readPage_eq_some_iff.mp read
      exact absurd number (pageless page _ _ divides)

/-- The reader keeps to the format and to the info of its caller exactly for texts in the
format, texts without a page size, and texts that are refused later when the info holds
already what is read of them. -/
theorem parseSegmentsLocation_strict_iff (name : String) (info : SegmentsLocationInfo) :
    (((parseSegmentsLocation name info).1 = true → Documented name) ∧
      ((parseSegmentsLocation name info).1 = false →
        (parseSegmentsLocation name info).2 = info)) ↔
      Documented name ∨ Pageless name ∨ RefusedLeaving name info := by
  by_cases documented : Documented name
  · obtain ⟨page, tokens, writes⟩ := documented
    simp only [writes.parsed info, Bool.true_eq_false, false_implies, and_true]
    exact iff_of_true (fun _ => ⟨page, tokens, writes⟩) (.inl ⟨page, tokens, writes⟩)
  · rw [← readPage_eq_none_iff, or_iff_right documented]
    cases read : readPage name with
    | none => simp [parseSegmentsLocation, read]
    | some pair =>
      rw [← @parseSegmentsLocation_refuses_iff info name info _ _ read, or_iff_right (by simp),
        Prod.ext_iff]
      constructor
      · rintro ⟨refused, kept⟩
        have failed := Bool.eq_false_iff.mpr fun accepted => documented (refused accepted)
        exact ⟨failed, kept failed⟩
      · rintro ⟨failed, kept⟩
        refine ⟨fun accepted => ?_, fun _ => kept⟩
        rw [failed] at accepted
        cases accepted

/-- Garbage is accepted; a refused text leaves its page size and its first node. -/
theorem lenient_segments_text :
    (parseSegmentsLocation "segments: -1x: 2y,,+3" ⟨0, []⟩).1 = true ∧
      parseSegmentsLocation "segments:4096:1,x" ⟨0, []⟩ = (false, ⟨4096, [1]⟩) := by
  decide +kernel

/-! ## Round trip -/

def buildSegmentsLocation (pageSize : Nat) (numaNodes : List Int) : String :=
  kSegmentsLocationPrefix ++ toString pageSize ++ ":" ++ ",".intercalate (numaNodes.map toString)

/-- The values of the machine types. -/
structure SegmentsLocationInfo.Fits (info : SegmentsLocationInfo) : Prop where
  nonempty : info.numaNodes ≠ []
  page : info.pageSize < 2 ^ 64
  nodes : ∀ node ∈ info.numaNodes, -2 ^ 31 ≤ node ∧ node < 2 ^ 31

theorem decimal_toDigits (value : Nat) :
    Decimal (Nat.toDigits 10 value) ∧ decimalValue (Nat.toDigits 10 value) = value :=
  ⟨⟨Nat.toDigits_ne_nil, fun _ inside => Nat.isDigit_of_mem_toDigits (by omega) (by omega) inside⟩,
    Nat.ofDigitChars_toDigits (by omega) (by omega)⟩

theorem intToken_toString (low : -2 ^ 31 ≤ node) (high : node < 2 ^ 31) :
    IntToken (toString node).toList node := by
  cases node with
  | ofNat value =>
    obtain ⟨plain, same⟩ := decimal_toDigits value
    have token := IntToken.natural plain (by rw [same]; exact Int.ofNat_lt.mp high)
    rw [same] at token
    rwa [show (toString (Int.ofNat value)).toList = Nat.toDigits 10 value from Nat.toList_repr]
  | negSucc value =>
    obtain ⟨plain, same⟩ := decimal_toDigits (value + 1)
    have token := IntToken.negative plain (by rw [same]; omega)
    rw [same] at token
    have text : (toString (Int.negSucc value)).toList = '-' :: Nat.toDigits 10 (value + 1) := by
      rw [show toString (Int.negSucc value) = "-" ++ (value + 1).repr from rfl,
        String.toList_append, Nat.toList_repr]
      rfl
    rwa [text]

theorem SegmentsLocationInfo.Fits.writes (fits : info.Fits) :
    Writes (buildSegmentsLocation info.pageSize info.numaNodes) (Nat.toDigits 10 info.pageSize)
      (info.numaNodes.map fun node => ((toString node).toList, node)) where
  text := by
    simp [buildSegmentsLocation, String.toList_intercalate, Function.comp_def]
  decimal := (decimal_toDigits _).1
  fits := by
    rw [(decimal_toDigits _).2]
    exact fits.page
  integers := by
    intro token listed
    obtain ⟨node, inside, rfl⟩ := mem_map.mp listed
    exact intToken_toString (fits.nodes node inside).1 (fits.nodes node inside).2
  nonempty := by simpa using fits.nonempty

/-! ## Regions -/

/-- The region that holds an offset; the bytes behind the last one are counted to it. -/
def regionIndex (parts bufferLength offset : Nat) : Nat :=
  min (offset / (bufferLength / parts)) (parts - 1)

theorem resolve_of_region {length offset : Nat} (sized : 0 < length / info.numaNodes.length)
    (held : info.numaNodes[regionIndex info.numaNodes.length length offset]? = some node) :
    resolveSegmentsLocation info length offset = "cpu:" ++ toString node := by
  have parts : info.numaNodes.length ≠ 0 := by
    intro none
    simp [none] at sized
  unfold regionIndex at held
  simp only [resolveSegmentsLocation, parts, if_false, Nat.ne_of_gt sized, held]

/-- The text that is built is read back, and an offset is given the node of its region. -/
theorem segments_resolve (info : SegmentsLocationInfo) (fits : info.Fits) (length : Nat) :
    let parts := info.numaNodes.length
    (∀ before, parseSegmentsLocation
        (buildSegmentsLocation info.pageSize info.numaNodes) before = (true, info)) ∧
      (parts ∣ length → ∀ index node, info.numaNodes[index]? = some node → ∀ offset,
        index * length / parts ≤ offset → offset < (index + 1) * length / parts →
          resolveSegmentsLocation info length offset = "cpu:" ++ toString node) ∧
      (parts ≤ length →
        (∀ offset, ∃ node, info.numaNodes[regionIndex parts length offset]? = some node ∧
          resolveSegmentsLocation info length offset = "cpu:" ++ toString node) ∧
        Monotone (regionIndex parts length) ∧
        (∀ index < parts, ∃ offset < length, regionIndex parts length offset = index) ∧
        ∀ offset, regionIndex parts length offset ≠ offset / (length / parts) ↔
          length - length % parts ≤ offset) := by
  intro parts
  have positive : 0 < parts := length_pos_of_ne_nil fits.nonempty
  refine ⟨fun before => ?_, ?_, fun enough => ?_⟩
  · rw [fits.writes.parsed, (decimal_toDigits _).2, map_map]
    simp [Function.comp_def]
  · rintro ⟨size, rfl⟩ index node listed offset low high
    have inside : index < parts := (List.getElem?_eq_some_iff.mp listed).1
    rw [Nat.mul_left_comm, Nat.mul_div_cancel_left _ positive] at low high
    have sized : parts * size / parts = size := Nat.mul_div_cancel_left _ positive
    have nonempty : 0 < size := by
      rw [Nat.add_mul] at high
      omega
    have place : offset / size = index := Nat.div_eq_of_lt_le low high
    have region : regionIndex parts (parts * size) offset = index := by
      rw [regionIndex, sized, place, Nat.min_eq_left (by omega)]
    exact resolve_of_region (Nat.lt_of_lt_of_eq nonempty sized.symm) (region.symm ▸ listed)
  · have sized : 0 < length / parts := Nat.div_pos enough positive
    have whole : parts * (length / parts) = length - length % parts := by
      have := Nat.div_add_mod length parts
      omega
    have inside : ∀ offset, regionIndex parts length offset < parts := by
      intro offset
      unfold regionIndex
      omega
    refine ⟨fun offset => ?_, ?_, fun index below => ?_, fun offset => ?_⟩
    · exact ⟨_, getElem?_eq_getElem (inside offset),
        resolve_of_region sized (getElem?_eq_getElem (inside offset))⟩
    · intro offset later order
      have grows : offset / (length / parts) ≤ later / (length / parts) :=
        Nat.div_le_div_right order
      unfold regionIndex
      omega
    · refine ⟨index * (length / parts), ?_, ?_⟩
      · have fewer : index * (length / parts) < parts * (length / parts) :=
          Nat.mul_lt_mul_of_pos_right below sized
        omega
      · rw [regionIndex, Nat.mul_div_cancel _ sized, Nat.min_eq_left (by omega)]
    · have clamped : parts ≤ offset / (length / parts) ↔ parts * (length / parts) ≤ offset :=
        Nat.le_div_iff_mul_le sized
      rw [← whole, ← clamped]
      unfold regionIndex
      omega

/-- Ten bytes on the nodes 1 and -1. -/
theorem segments_resolve_ten :
    parseSegmentsLocation (buildSegmentsLocation 4096 [1, -1]) ⟨0, []⟩ = (true, ⟨4096, [1, -1]⟩) :=
  (segments_resolve ⟨4096, [1, -1]⟩ ⟨by decide, by decide, by decide⟩ 10).1 ⟨0, []⟩

end Mooncake.Rdma
