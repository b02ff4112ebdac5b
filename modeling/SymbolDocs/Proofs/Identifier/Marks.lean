import SymbolDocs.Proofs.Identifier.Forms
set_option autoImplicit false

/-!
# Backticks before digits

In a signature a backtick before a decimal digit is part of a reference to a generic parameter. The
arity marks of names are removed there, and removing them leaves no backtick before a digit: a mark
takes all the digits behind its backtick, so that what closes up behind it is no digit.

## Main definitions

* `Naming.LosesMarks` — a text and what is left of it without its arity marks.
* `Piece`, `TypeTerm.pieces` — what a type is written from in a signature.
* `Naming.spell` — the text of some pieces in a scope.
* `Naming.EndsReference` — a backtick is the last one of a reference among some pieces.

## Main results

* `Naming.losesMarks_iff` — arity marks are removed as a whole, and nothing else is.
* `Naming.LosesMarks.unmarked` — no arity mark is left or made.
* `Naming.spell_pieces` — a type is written from its pieces.
* `Naming.MarksRefer.append_delimited` — pieces are joined at characters that make no mark.
* `Naming.marks_only_in_references` — what a backtick before a digit means in a signature.

## Design

The pieces of a type are told from the term alone, with the parameter that each reference is to.
Where a reference stands in the written name is told by the pieces before and behind it, not by what
it looks like.
-/

namespace SymbolDocs

namespace Naming

/-! ### Names without arity marks -/

/-- A text and what is left of it without its arity marks, each of which is a backtick with all the
decimal digits behind it, at least one. -/
inductive LosesMarks : Text → Text → Prop where
  /-- Nothing is left of nothing. -/
  | nil : LosesMarks [] []
  /-- A character stays unless it is a backtick with a digit behind it. -/
  | keep {c : Char} {text left : Text}
      (no_mark : c = '\x60' → ∀ d ∈ text.head?, Text.isDigit d = false)
      (rest : LosesMarks text left) : LosesMarks (c :: text) (c :: left)
  /-- A backtick goes with all the digits behind it. -/
  | mark {digits text left : Text} (ne_nil : digits ≠ [])
      (digit : ∀ d ∈ digits, Text.isDigit d = true)
      (maximal : ∀ d ∈ text.head?, Text.isDigit d = false)
      (rest : LosesMarks text left) : LosesMarks ('\x60' :: (digits ++ text)) left

/-- The digits of a mark are skipped. -/
theorem withoutArityFrom_true (text : Text) :
    withoutArityFrom true text = withoutArity (text.dropWhile Text.isDigit) := by
  induction text with
  | nil => rfl
  | cons c text ih =>
    cases hc : Text.isDigit c with
    | true =>
      rw [withoutArityFrom, hc, Bool.and_self, if_pos rfl, ih, List.dropWhile_cons_of_pos hc]
    | false =>
      have hstop : ¬ Text.isDigit c = true := by simp [hc]
      rw [List.dropWhile_cons_of_neg hstop, withoutArity, withoutArityFrom, withoutArityFrom, hc]
      rfl

/-- A backtick with a digit behind it goes with all the digits there. -/
theorem withoutArity_mark {text : Text} (h : ∃ d ∈ text.head?, Text.isDigit d = true) :
    withoutArity ('\x60' :: text) = withoutArity (text.dropWhile Text.isDigit) := by
  obtain ⟨d, hhead, hd⟩ := h
  rw [← withoutArityFrom_true, withoutArity, withoutArityFrom, Option.mem_def.mp hhead]
  simp [hd]

/-- What follows a run of digits that is taken as a whole is no digit. -/
theorem head_dropWhile_isDigit (text : Text) :
    ∀ d ∈ (text.dropWhile Text.isDigit).head?, Text.isDigit d = false := by
  intro d hd
  have hstop := List.head?_dropWhile_not (p := Text.isDigit) text
  rw [Option.mem_def.mp hd] at hstop
  exact hstop

/-- The arity marks of a text are removed as a whole, and nothing else is. -/
theorem losesMarks_withoutArity (text : Text) : LosesMarks text (withoutArity text) := by
  induction hlength : text.length using Nat.strongRecOn generalizing text with
  | ind n ih =>
    cases text with
    | nil => exact .nil
    | cons c text =>
      subst hlength
      by_cases h : c = '\x60' ∧ ∃ d ∈ text.head?, Text.isDigit d = true
      · obtain ⟨rfl, hmark⟩ := h
        have hrest := ih (text.dropWhile Text.isDigit).length
          (Nat.lt_succ_of_le (List.dropWhile_suffix _).length_le) _ rfl
        have hne : text.takeWhile Text.isDigit ≠ [] := by
          obtain ⟨d, hhead, hd⟩ := hmark
          cases text with
          | nil => exact nomatch hhead
          | cons e text =>
            obtain rfl : e = d := Option.some.inj hhead
            simp [hd]
        rw [withoutArity_mark hmark]
        have hloses := LosesMarks.mark hne
          (fun d hd => List.all_eq_true.mp List.all_takeWhile d hd) (head_dropWhile_isDigit text)
          hrest
        rwa [List.takeWhile_append_dropWhile] at hloses
      · have hkeep : c = '\x60' → ∀ d ∈ text.head?, Text.isDigit d = false := by
          intro hc d hd
          exact Bool.eq_false_iff.mpr fun hdigit => h ⟨hc, d, hd, hdigit⟩
        rw [withoutArity_keep hkeep]
        exact .keep hkeep (ih _ (Nat.lt_succ_self _) text rfl)

/-- What is left of a text without its arity marks is determined. -/
theorem LosesMarks.withoutArity_eq {text left : Text} (h : LosesMarks text left) :
    withoutArity text = left := by
  induction h with
  | nil => rfl
  | keep no_mark _ ih => rw [withoutArity_keep no_mark, ih]
  | @mark digits text left ne_nil digit maximal _ ih =>
    obtain ⟨d, digits, rfl⟩ := List.exists_cons_of_ne_nil ne_nil
    have hdropped : (d :: digits ++ text).dropWhile Text.isDigit = text := by
      rw [List.dropWhile_append_of_pos digit]
      cases text with
      | nil => rfl
      | cons e text => exact List.dropWhile_cons_of_neg (by simp [maximal e rfl])
    rw [withoutArity_mark ⟨d, rfl, digit d List.mem_cons_self⟩, hdropped, ih]

/-- **A name without its arity marks** is what is left when each of them goes as a whole and
everything else stays. -/
theorem losesMarks_iff {text left : Text} : LosesMarks text left ↔ left = withoutArity text :=
  ⟨fun h => h.withoutArity_eq.symm, fun h => h ▸ losesMarks_withoutArity text⟩

/-- What is left of a text that does not begin with a digit does not either. -/
theorem LosesMarks.head {text left : Text} (h : LosesMarks text left)
    (hhead : ∀ d ∈ text.head?, Text.isDigit d = false) :
    ∀ d ∈ left.head?, Text.isDigit d = false := by
  induction h with
  | nil => exact hhead
  | keep no_mark _ _ => exact hhead
  | mark _ _ maximal _ ih => exact ih maximal

/-- **No arity mark is left, and none is made** by removing those there are. -/
theorem LosesMarks.unmarked {text left : Text} (h : LosesMarks text left) : Unmarked left := by
  induction h with
  | nil => exact .nil
  | keep no_mark rest ih =>
    exact List.isChain_cons.mpr ⟨fun d hd hc => rest.head (no_mark hc) d hd, ih⟩
  | mark _ _ _ _ ih => exact ih

end Naming

/-! ### Pieces -/

/-- A piece that a written name is made of. -/
inductive Piece where
  /-- Text that is the same in every scope. -/
  | literal (text : Text)
  /-- The dimensions of an array over an element of some name. -/
  | dimensions (element : Text) (rank : UInt32)
  /-- A reference to a generic parameter. -/
  | reference (parameter : Text)
  deriving DecidableEq, Repr

/-- The text of a piece in a scope. -/
def Piece.text (scope : GenericScope) : Piece → Except IdentifierError Text
  | .literal text => .ok text
  | .dimensions element rank =>
    if rank = 0 then .error (.arrayWithoutDimension element) else .ok (Naming.dimensions rank)
  | .reference parameter => scope.reference parameter

/-- Pieces in braces, with commas between them; none where there is nothing to list. -/
def Piece.braces : List (List Piece) → List Piece
  | [] => []
  | items =>
    .literal ['\x7b'] :: (List.intercalate [.literal [',']] items ++ [.literal ['\x7d']])

namespace TypeTerm

mutual

/-- The pieces that a type is written from inside a signature. -/
def pieces : TypeTerm → List Piece
  | .genericParameter header => [.reference header.name]
  | .array _ element rank => pieces element ++ [.dimensions element.name rank]
  | .pointer _ element => pieces element ++ [.literal ['*']]
  | .byRef _ element => pieces element ++ [.literal ['@']]
  | .named header declaring parameters arguments =>
    outerPieces header.space declaring ++ .literal (Naming.withoutArity header.name) ::
      Piece.braces (if arguments = [] then parameters.map fun name => [.reference name]
        else piecesOfAll arguments)

/-- The pieces before the name of a type: those of its enclosing type or, where it has none, its
namespace, and a dot. -/
def outerPieces (space : Text) : Option TypeTerm → List Piece
  | some outer => pieces outer ++ [.literal ['.']]
  | none => if space = [] then [] else [.literal space, .literal ['.']]

/-- The pieces of some types, type by type. -/
def piecesOfAll : List TypeTerm → List (List Piece)
  | [] => []
  | type :: rest => pieces type :: piecesOfAll rest

end

/-- The pieces of some types, one by one. -/
theorem piecesOfAll_eq_map (types : List TypeTerm) : piecesOfAll types = types.map pieces := by
  induction types with
  | nil => rfl
  | cons type types ih => rw [piecesOfAll, ih, List.map_cons]

end TypeTerm

namespace Naming

/-- The text of some pieces in a scope. -/
def spell (scope : GenericScope) (pieces : List Piece) : Except IdentifierError Text :=
  collect (Piece.text scope) pieces

section Spelling

variable {scope : GenericScope}

/-- The text of some pieces and others behind them. -/
theorem spell_append (first second : List Piece) :
    spell scope (first ++ second) =
      spell scope first >>= fun text => (spell scope second).map (text ++ ·) :=
  collect_append _ first second

/-- The text of one piece. -/
theorem spell_singleton (piece : Piece) : spell scope [piece] = piece.text scope := by
  rw [spell, collect_cons]
  cases piece.text scope with
  | error error => rfl
  | ok text => exact congrArg Except.ok (List.append_nil text)

/-- The text of a literal and the pieces behind it. -/
theorem spell_literal_cons (text : Text) (pieces : List Piece) :
    spell scope (.literal text :: pieces) = (spell scope pieces).map (text ++ ·) :=
  collect_cons _ _ pieces

/-- The text of pieces with commas between them. -/
theorem spell_intercalate (items : List (List Piece)) :
    spell scope (List.intercalate [.literal [',']] items) =
      (items.mapM (spell scope)).map commaSeparated := by
  induction items with
  | nil => rfl
  | cons first rest ih =>
    rw [List.mapM_cons]
    cases rest with
    | nil =>
      rw [List.intercalate_singleton]
      cases spell scope first with
      | error error => rfl
      | ok text => exact congrArg Except.ok (List.append_nil text).symm
    | cons second rest =>
      rw [List.intercalate_cons_cons, spell_append, spell_append, spell_singleton, ih]
      cases spell scope first with
      | error error => rfl
      | ok text =>
        cases hrest : (second :: rest).mapM (spell scope) with
        | error error => rfl
        | ok texts =>
          obtain ⟨next, others, rfl⟩ :=
            List.exists_cons_of_ne_nil (mapM_ne_nil (List.cons_ne_nil second rest) hrest)
          refine congrArg Except.ok ?_
          rw [commaSeparated, commaSeparated, List.intercalate_cons_cons]

/-- **The text of pieces in braces** is the list in braces of their texts. -/
theorem spell_braces (items : List (List Piece)) :
    spell scope (Piece.braces items) = (items.mapM (spell scope)).map braces := by
  cases items with
  | nil => rfl
  | cons first rest =>
    rw [Piece.braces, spell_literal_cons, spell_append, spell_singleton, spell_intercalate]
    · cases hitems : (first :: rest).mapM (spell scope) with
      | error error => rfl
      | ok texts =>
        obtain ⟨next, others, rfl⟩ :=
          List.exists_cons_of_ne_nil (mapM_ne_nil (List.cons_ne_nil first rest) hitems)
        rfl
    · nofun

/-- What stands before the name of a type is written from its pieces where the enclosing type is. -/
theorem spell_outerPieces {declaring : Option TypeTerm}
    (h : ∀ outer ∈ declaring, spell scope outer.pieces = write .signature scope outer)
    (space : Text) :
    spell scope (TypeTerm.outerPieces space declaring) =
      qualifier .signature scope space declaring := by
  cases declaring with
  | none =>
    rw [qualifier_none, TypeTerm.outerPieces]
    split
    · rfl
    · rw [spell_literal_cons, spell_singleton]
      rfl
  | some outer =>
    rw [qualifier_some, TypeTerm.outerPieces, spell_append, h outer rfl, spell_singleton]
    cases write .signature scope outer <;> rfl

/-- What a type lists is written from its pieces where its arguments are. -/
theorem spell_listing {arguments : List TypeTerm}
    (h : ∀ argument ∈ arguments, spell scope argument.pieces = write .signature scope argument)
    (parameters : List Text) :
    (if arguments = [] then parameters.map fun name => [.reference name]
      else TypeTerm.piecesOfAll arguments).mapM (spell scope) =
      listing scope parameters arguments := by
  rw [listing]
  split
  · rw [List.mapM_map]
    exact mapM_congr fun name _ => spell_singleton _
  · rw [TypeTerm.piecesOfAll_eq_map, List.mapM_map]
    exact mapM_congr h

/-- **A type is written from its pieces**, and fails where the text of a piece does.

**Proof sketch.** By induction on the type. The pieces stand in the order in which the parts of the
type are written. -/
theorem spell_pieces (scope : GenericScope) (type : TypeTerm) :
    spell scope type.pieces = write .signature scope type := by
  induction type using TypeTerm.rec_on_parts with
  | named header declaring parameters arguments ihouter iharguments =>
    rw [write_named_signature, TypeTerm.pieces, spell_append, spell_outerPieces ihouter,
      spell_literal_cons, spell_braces, spell_listing iharguments]
    cases qualifier .signature scope header.space declaring with
    | error error => rfl
    | ok lead =>
      cases listing scope parameters arguments with
      | error error => rfl
      | ok listed => exact congrArg Except.ok (List.append_assoc _ _ _).symm
  | genericParameter header =>
    rw [TypeTerm.pieces, spell_singleton, write]
    rfl
  | array header element rank ih =>
    rw [TypeTerm.pieces, spell_append, ih, spell_singleton, write]
    cases write .signature scope element with
    | error error => rfl
    | ok name =>
      by_cases hrank : rank = 0
      · simp [Piece.text, hrank, bind, Except.bind, Except.map]
      · simp [Piece.text, hrank, bind, Except.bind, Except.map]
  | pointer header element ih =>
    rw [TypeTerm.pieces, spell_append, ih, spell_singleton, write]
    cases write .signature scope element <;> rfl
  | byRef header element ih =>
    rw [TypeTerm.pieces, spell_append, ih, spell_singleton, write]
    cases write .signature scope element <;> rfl

end Spelling

/-! ### Where marks stand -/

/-- The backtick between `before` and `after` is the last one of a reference to a generic parameter:
the reference is a piece, and the other pieces make up the text before and behind it. -/
def EndsReference (scope : GenericScope) (pieces : List Piece) (before after : Text) : Prop :=
  ∃ ahead parameter behind start lead digits rest,
    pieces = ahead ++ .reference parameter :: behind ∧
      spell scope ahead = .ok start ∧
      scope.reference parameter = .ok (lead ++ '\x60' :: digits) ∧ '\x60' ∉ digits ∧
      spell scope behind = .ok rest ∧
      before = start ++ lead ∧ after = digits ++ rest

/-- Every backtick before a digit in the text of some pieces is the last one of a reference. -/
def MarksRefer (scope : GenericScope) (pieces : List Piece) : Prop :=
  ∀ text before c after, spell scope pieces = .ok text → text = before ++ '\x60' :: c :: after →
    Text.isDigit c = true → EndsReference scope pieces before (c :: after)

section Marks

variable {scope : GenericScope} {first second : List Piece}

/-- More pieces ahead are more text before a reference. -/
theorem EndsReference.behind {before after front : Text}
    (h : EndsReference scope second before after) (hfirst : spell scope first = .ok front) :
    EndsReference scope (first ++ second) (front ++ before) after := by
  obtain ⟨ahead, parameter, behind, start, lead, digits, rest, rfl, hahead, href, hdigits, hbehind,
    rfl, rfl⟩ := h
  refine ⟨first ++ ahead, parameter, behind, front ++ start, lead, digits, rest,
    (List.append_assoc _ _ _).symm, ?_, href, hdigits, hbehind, (List.append_assoc _ _ _).symm, rfl⟩
  rw [spell_append, hfirst, hahead]
  rfl

/-- More pieces behind are more text behind a reference. -/
theorem EndsReference.ahead {before after back : Text}
    (h : EndsReference scope first before after) (hsecond : spell scope second = .ok back) :
    EndsReference scope (first ++ second) before (after ++ back) := by
  obtain ⟨ahead, parameter, behind, start, lead, digits, rest, rfl, hahead, href, hdigits, hbehind,
    rfl, rfl⟩ := h
  refine ⟨ahead, parameter, behind ++ second, start, lead, digits, rest ++ back,
    by simp, hahead, href, hdigits, ?_, rfl, List.append_assoc _ _ _⟩
  rw [spell_append, hbehind, hsecond]
  rfl

/-- **Pieces are joined without making marks** where no backtick meets a digit between them. -/
theorem MarksRefer.append (hfirst : MarksRefer scope first) (hsecond : MarksRefer scope second)
    (hjoin : ∀ front back, spell scope first = .ok front → spell scope second = .ok back →
      front.getLast? = some '\x60' → ∀ c ∈ back.head?, Text.isDigit c = false) :
    MarksRefer scope (first ++ second) := by
  intro text before c after htext heq hc
  rw [spell_append] at htext
  obtain ⟨front, hfront, htext⟩ := bind_eq_ok.mp htext
  obtain ⟨back, hback, rfl⟩ := map_eq_ok.mp htext
  rcases List.append_eq_append_iff.mp heq with ⟨gap, rfl, hgap⟩ | ⟨gap, rfl, hgap⟩
  · exact (hsecond back gap c after hback hgap hc).behind hfront
  · -- the backtick is the last character of the first text, or the digit lies in it too
    rcases List.cons_eq_append_iff.mp hgap with ⟨rfl, rfl⟩ | ⟨gap, rfl, hrest⟩
    · simpa using (hsecond _ [] c after hback rfl hc).behind hfront
    · rcases List.cons_eq_append_iff.mp hrest with ⟨rfl, rfl⟩ | ⟨gap, rfl, rfl⟩
      · have hlast : (before ++ ['\x60']).getLast? = some '\x60' := List.getLast?_concat
        rw [hjoin _ _ hfront hback hlast c rfl] at hc
        exact absurd hc Bool.false_ne_true
      · exact (hfirst _ before c gap hfront rfl hc).ahead hback

/-- A text without arity marks holds no backtick before a digit. -/
theorem marksRefer_literal {text : Text} (h : Unmarked text) :
    MarksRefer scope [.literal text] := by
  intro spelled before c after hspelled heq hc
  rw [spell_singleton] at hspelled
  obtain rfl := Except.ok.inj hspelled
  rw [heq, Unmarked, List.isChain_append] at h
  have hnext := (List.isChain_cons_cons.mp h.2.1).1 rfl
  rw [hnext] at hc
  exact absurd hc Bool.false_ne_true

/-- Dimensions hold no backtick. -/
theorem marksRefer_dimensions (element : Text) (rank : UInt32) :
    MarksRefer scope [.dimensions element rank] := by
  intro spelled before c after hspelled heq _
  rw [spell_singleton, Piece.text] at hspelled
  split at hspelled
  · exact nomatch hspelled
  · obtain rfl := Except.ok.inj hspelled
    have hmem : '\x60' ∈ (Wrapper.array rank).text := by
      rw [Wrapper.text, heq]
      simp
    exact absurd (TypeSignature.mem_wrapper_text hmem) (by decide)

/-- Dimensions do not begin with a digit. -/
theorem isDigit_head_dimensions {element text : Text} {rank : UInt32} {c : Char}
    (h : spell scope [.dimensions element rank] = .ok text) (hc : c ∈ text.head?) :
    Text.isDigit c = false := by
  rw [spell_singleton, Piece.text] at h
  split at h
  · exact nomatch h
  · obtain rfl := Except.ok.inj h
    exact TypeSignature.isDigit_head_wrapper_text (.array rank) c hc

/-- The only backtick before a number is the one right before it. -/
theorem eq_of_tick_append {position : Nat} {before rest : Text}
    (h : '\x60' :: Text.ofNat position = before ++ '\x60' :: rest) :
    rest = Text.ofNat position := by
  rcases List.cons_eq_append_iff.mp h with ⟨-, h⟩ | ⟨before, -, h⟩
  · exact (List.cons.inj h).2
  · have hmem : '\x60' ∈ Text.ofNat position := by
      rw [h]
      exact List.mem_append_right before List.mem_cons_self
    exact absurd (Text.isDigit_of_mem_ofNat hmem) (by decide)

/-- A backtick before a digit in a reference stands before its number. -/
theorem eq_ofNat_of_reference {parameter before after : Text} {c : Char}
    (h : scope.reference parameter = .ok (before ++ '\x60' :: c :: after))
    (hc : Text.isDigit c = true) : ∃ position, c :: after = Text.ofNat position := by
  rw [GenericScope.reference] at h
  cases hmember : scope.ofMember.position? parameter with
  | some position =>
    rw [hmember] at h
    -- the first of the two backticks has no digit behind it
    rcases List.cons_eq_append_iff.mp (Except.ok.inj h) with ⟨-, h⟩ | ⟨before, -, h⟩
    · obtain rfl := (List.cons.inj (List.cons.inj h).2).1
      exact absurd hc (by decide)
    · exact ⟨position, eq_of_tick_append h⟩
  | none =>
    rw [hmember] at h
    cases htype : scope.ofType.position? parameter with
    | some position =>
      rw [htype] at h
      exact ⟨position, eq_of_tick_append (Except.ok.inj h)⟩
    | none =>
      rw [htype] at h
      cases h

/-- The backtick before the digits of a reference is its last one. -/
theorem marksRefer_reference (parameter : Text) : MarksRefer scope [.reference parameter] := by
  intro text before c after htext heq hc
  rw [spell_singleton, heq] at htext
  obtain ⟨position, hnumber⟩ := eq_ofNat_of_reference htext hc
  have htick : '\x60' ∉ c :: after := fun hmem =>
    absurd (Text.isDigit_of_mem_ofNat (hnumber ▸ hmem)) (by decide)
  exact ⟨[], parameter, [], [], before, c :: after, [], rfl, rfl, htext, htick, rfl, rfl,
    (List.append_nil _).symm⟩

/-- Pieces with a character between them that is neither a backtick nor a digit are joined without
making marks. -/
theorem MarksRefer.append_delimited (hfirst : MarksRefer scope first)
    (hsecond : MarksRefer scope second) {delimiter : Char} (htick : delimiter ≠ '\x60')
    (hdigit : Text.isDigit delimiter = false) :
    MarksRefer scope (first ++ .literal [delimiter] :: second) := by
  have hdelimited : MarksRefer scope ([.literal [delimiter]] ++ second) := by
    refine (marksRefer_literal (List.isChain_singleton _)).append hsecond ?_
    intro front back hfront _ hlast
    rw [spell_singleton] at hfront
    obtain rfl := Except.ok.inj hfront
    exact absurd (Option.some.inj hlast) htick
  refine hfirst.append hdelimited fun front back _ hback _ c hc => ?_
  rw [spell_literal_cons] at hback
  obtain ⟨rest, -, rfl⟩ := map_eq_ok.mp hback
  obtain rfl : delimiter = c := Option.some.inj hc
  exact hdigit

/-- No piece makes no mark. -/
theorem marksRefer_nil : MarksRefer scope [] := by
  intro text before c after htext heq _
  obtain rfl : [] = text := Except.ok.inj htext
  simp at heq

/-- Pieces with commas between them make no marks where they make none themselves. -/
theorem marksRefer_intercalate {items : List (List Piece)}
    (h : ∀ item ∈ items, MarksRefer scope item) :
    MarksRefer scope (List.intercalate [.literal [',']] items) := by
  induction items with
  | nil => exact marksRefer_nil
  | cons item items ih =>
    obtain ⟨hitem, hitems⟩ := List.forall_mem_cons.mp h
    cases items with
    | nil => simpa using hitem
    | cons next items =>
      rw [List.intercalate_cons_cons, List.append_assoc]
      exact hitem.append_delimited (ih hitems) (by decide) (by decide)

/-- Pieces in braces make no marks behind others where the listed ones make none. -/
theorem MarksRefer.append_braces {items : List (List Piece)} (hfirst : MarksRefer scope first)
    (hitems : ∀ item ∈ items, MarksRefer scope item) :
    MarksRefer scope (first ++ Piece.braces items) := by
  cases items with
  | nil => simpa [Piece.braces] using hfirst
  | cons item items =>
    have hclosed := (marksRefer_intercalate hitems).append_delimited marksRefer_nil
      (show '\x7d' ≠ '\x60' by decide) (by decide)
    exact hfirst.append_delimited hclosed (by decide) (by decide)

/-- What a type lists makes no marks where its arguments make none. -/
theorem marksRefer_listing {arguments : List TypeTerm}
    (h : ∀ argument ∈ arguments, MarksRefer scope argument.pieces) (parameters : List Text) :
    ∀ item ∈ (if arguments = [] then parameters.map fun name => [.reference name]
      else TypeTerm.piecesOfAll arguments), MarksRefer scope item := by
  intro item hitem
  split at hitem
  · obtain ⟨name, -, rfl⟩ := List.mem_map.mp hitem
    exact marksRefer_reference name
  · rw [TypeTerm.piecesOfAll_eq_map] at hitem
    obtain ⟨argument, hargument, rfl⟩ := List.mem_map.mp hitem
    exact h argument hargument

/-- **In a signature, backticks before digits belong to references**, where no namespace holds one.

**Proof sketch.** By induction on the type. Its pieces are texts without such backticks and
references, and at least one character that is neither a backtick nor a digit stands between them.
-/
theorem marksRefer_pieces {type : TypeTerm} (hspaces : ∀ t ∈ type.parts, Unmarked t.space) :
    MarksRefer scope type.pieces := by
  induction type using TypeTerm.rec_on_parts with
  | named header declaring parameters arguments ihouter iharguments =>
    have harguments : ∀ argument ∈ arguments, MarksRefer scope argument.pieces :=
      fun argument hargument => iharguments argument hargument fun t ht =>
        hspaces t (TypeTerm.mem_parts_of_argument hargument ht)
    have hlisted := marksRefer_listing harguments parameters
    have hname : MarksRefer scope ([.literal (withoutArity header.name)] ++ Piece.braces
        (if arguments = [] then parameters.map fun name => [.reference name]
          else TypeTerm.piecesOfAll arguments)) :=
      (marksRefer_literal (losesMarks_withoutArity header.name).unmarked).append_braces hlisted
    rw [TypeTerm.pieces]
    cases declaring with
    | none =>
      rw [TypeTerm.outerPieces]
      split
      · exact hname
      · have hspace : Unmarked header.space := hspaces _ (TypeTerm.mem_parts_self _)
        exact (marksRefer_literal hspace).append_delimited hname (by decide) (by decide)
    | some outer =>
      have houter := ihouter outer rfl fun t ht =>
        hspaces t (TypeTerm.mem_parts_of_outer rfl ht)
      rw [TypeTerm.outerPieces, List.append_assoc]
      exact houter.append_delimited hname (by decide) (by decide)
  | genericParameter header => exact marksRefer_reference header.name
  | array header element rank ih =>
    have helement := ih fun t ht => hspaces t (.tail _ ht)
    refine helement.append (marksRefer_dimensions element.name rank) ?_
    intro front back _ hback _ c hc
    exact isDigit_head_dimensions hback hc
  | pointer header element ih =>
    have helement := ih fun t ht => hspaces t (.tail _ ht)
    exact helement.append_delimited marksRefer_nil (by decide) (by decide)
  | byRef header element ih =>
    have helement := ih fun t ht => hspaces t (.tail _ ht)
    exact helement.append_delimited marksRefer_nil (by decide) (by decide)

end Marks

/-! ### What a backtick before a digit means -/

/-- **What a backtick before a digit means in a signature.** The name of a type is written without
its arity marks, each removed with all its digits; it holds no backtick before a digit, and removing
the marks of what is left changes nothing. A type is written from its pieces, and where none of its
namespaces holds a backtick before a digit, every such backtick in its written name is the last one
of a reference to a generic parameter.

**Proof sketch.** Behind a mark stands no digit, for the mark would have taken it, so that what
closes up behind a mark makes none; and between the pieces of a type stand characters that are
neither backticks nor digits. -/
theorem marks_only_in_references (scope : GenericScope) :
    (∀ header declaring parameters arguments written,
      write .signature scope (.named header declaring parameters arguments) = .ok written →
      ∃ lead name listed, qualifier .signature scope header.space declaring = .ok lead ∧
        listing scope parameters arguments = .ok listed ∧
        written = lead ++ name ++ braces listed ∧
        (∀ left, LosesMarks header.name left ↔ left = name) ∧
        Unmarked name ∧ withoutArity name = name) ∧
    (∀ type : TypeTerm, spell scope type.pieces = write .signature scope type) ∧
    ∀ type : TypeTerm, (∀ t ∈ type.parts, Unmarked t.space) →
      ∀ written, write .signature scope type = .ok written →
      ∀ before c after, written = before ++ '\x60' :: c :: after → Text.isDigit c = true →
        EndsReference scope type.pieces before (c :: after) := by
  refine ⟨?named, spell_pieces scope, ?references⟩
  case named =>
    intro header declaring parameters arguments written hwritten
    rw [write_named_signature] at hwritten
    obtain ⟨lead, hlead, hwritten⟩ := bind_eq_ok.mp hwritten
    obtain ⟨listed, hlisted, rfl⟩ := map_eq_ok.mp hwritten
    have hunmarked := (losesMarks_withoutArity header.name).unmarked
    exact ⟨lead, withoutArity header.name, listed, hlead, hlisted, rfl,
      fun left => losesMarks_iff, hunmarked, withoutArity_of_unmarked hunmarked⟩
  case references =>
    intro type hspaces written hwritten before c after heq hc
    rw [← spell_pieces] at hwritten
    exact marksRefer_pieces hspaces written before c after hwritten heq hc

/-- A type of doubled and dangling backticks, over a parameter and an array of a parameter. -/
def tickedType : TypeTerm :=
  .named { name := "Odd`1``2٣`".toList, space := "Sample`".toList } none []
    [.genericParameter { name := "T".toList },
      .array { name := "U[]".toList } (.genericParameter { name := "U".toList }) 1]

/-- A scope with a parameter of the type and one of the member. -/
def tickedScope : GenericScope where
  ofType := .ofNames ["T".toList]
  ofMember := .ofNames ["U".toList]

/-- The marks of a name go, its other backticks stay, and the last backtick before a digit belongs
to the second reference. -/
theorem marks_only_in_references_tickedType :
    write .signature tickedScope tickedType = .ok "Sample`.Odd``\x7b`0,``0[]\x7d".toList ∧
      (∀ left, LosesMarks "Odd`1``2٣`".toList left ↔ left = "Odd``".toList) ∧
      EndsReference tickedScope tickedType.pieces "Sample`.Odd``\x7b`0,`".toList
        "0[]\x7d".toList := by
  have hwritten : write .signature tickedScope tickedType =
      .ok "Sample`.Odd``\x7b`0,``0[]\x7d".toList := rfl
  obtain ⟨hnamed, -, hreferences⟩ := marks_only_in_references tickedScope
  obtain ⟨lead, name, listed, -, -, -, hleft, -⟩ :=
    hnamed _ none [] tickedType.arguments _ hwritten
  obtain rfl : "Odd``".toList = name :=
    (hleft _).mp (losesMarks_withoutArity "Odd`1``2٣`".toList)
  exact ⟨hwritten, hleft,
    hreferences tickedType (by decide) _ hwritten _ _ _ rfl (by decide)⟩

end Naming

end SymbolDocs
