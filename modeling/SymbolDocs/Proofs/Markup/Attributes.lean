import SymbolDocs.Proofs.Markup.Faults
set_option autoImplicit false

/-!
# Members are named by their attribute

A member element documents the member that its `name` attribute says, whatever attributes stand
around it and however they are spelled. One with no such attribute cannot be scanned.

## Main definitions

* `Markup.Blanks` — a text of blanks only.
* `Markup.isAttributeName` — whether a text is the name of an attribute.
* `Markup.SpelledAttribute` — an attribute with its quotes and the blanks around its parts.
* `Markup.IsElementName` — names that a member element can go by.
* `Markup.spelledElement` — a member element with some spelled attributes.

## Main results

* `Markup.attributes_append` — a text that begins with an attribute has it first.
* `Markup.attributes_flatMap_source` — the attributes found are those that have been spelled.
* `Markup.startTag_spelledTag` — the tag ends behind them.
* `Markup.spelledElement_named` — the member that the element documents, or the fault.

## Design

The end of a tag is found by following the quotes, while attributes are looked for at each position.
Both divide the text in the same way since they come upon a spelled attribute at its beginning and
leave it at its end, so that neither ever looks at a value from within.
-/

namespace SymbolDocs

namespace Markup

/-! ### Attributes at the beginning of a text -/

/-- The attributes found so far stand before those of the text behind the skipped characters. -/
theorem attributesFrom_eq (done : List Attribute) (skipped : Nat) (text : Text) :
    attributesFrom done skipped text = done.reverse ++ attributes (text.drop skipped) := by
  induction text generalizing done skipped with
  | nil => simp [attributesFrom, attributes]
  | cons c text ih =>
    cases skipped with
    | succ skipped => rw [attributesFrom, ih, List.drop_succ_cons]
    | zero =>
      rw [List.drop_zero, attributes, attributesFrom, attributesFrom]
      cases attributeAt? (c :: text) with
      | none => simp [ih]
      | some found => simp [ih]

/-- A character that begins no name is passed over. -/
theorem attributes_cons {c : Char} (h : isNameStart c = false) (text : Text) :
    attributes (c :: text) = attributes text := by
  have hnone : attributeAt? (c :: text) = none := by simp [attributeAt?, h]
  have hpassed : passed (c :: text) = 1 := by simp [passed, h]
  rw [attributes, attributesFrom, hnone]
  simp [hpassed, attributesFrom_eq]

/-- Blanks are passed over. -/
theorem attributes_append_blanks {blanks : Text} (h : ∀ c ∈ blanks, Text.isBlank c = true)
    (text : Text) : attributes (blanks ++ text) = attributes text := by
  induction blanks with
  | nil => rfl
  | cons c blanks ih =>
    have hchar := isNameChar_of_isBlank (h c List.mem_cons_self)
    have hstart : isNameStart c = false :=
      Bool.eq_false_iff.mpr fun hc => by simp [isNameChar_of_isNameStart hc] at hchar
    rw [List.cons_append, attributes_cons hstart, ih fun d hd => h d (List.mem_cons_of_mem c hd)]

/-- A text that begins with a quoted value has it. -/
theorem quoted?_append {quote : Char} {value : Text} (hquote : isQuote quote = true)
    (hvalue : quote ∉ value) (rest : Text) :
    quoted? (quote :: (value ++ quote :: rest)) = some (value, value.length + 2) := by
  have htake : (value ++ quote :: rest).takeWhile (· ≠ quote) = value := by
    rw [List.takeWhile_append_of_pos fun c hc => by
      simpa using fun heq : c = quote => hvalue (heq ▸ hc)]
    simp
  rw [quoted?]
  simp only [htake]
  rw [if_pos (by simp [hquote])]

/-- The blanks that a text begins with end at a character that is none. -/
theorem takeWhile_isBlank_append {blanks : Text} (h : ∀ c ∈ blanks, Text.isBlank c = true)
    {c : Char} (hc : Text.isBlank c = false) (text : Text) :
    (blanks ++ c :: text).takeWhile Text.isBlank = blanks := by
  rw [List.takeWhile_append_of_pos h]
  simp [hc]

/-- A text begins with the value written in quotes after an equals sign between blanks. -/
theorem assigned?_append {before after value : Text} {quote : Char}
    (hbefore : ∀ c ∈ before, Text.isBlank c = true) (hafter : ∀ c ∈ after, Text.isBlank c = true)
    (hquote : isQuote quote = true) (hvalue : quote ∉ value) (rest : Text) :
    assigned? (before ++ '=' :: (after ++ quote :: (value ++ quote :: rest))) =
      some (value, (before ++ '=' :: (after ++ quote :: (value ++ [quote]))).length) := by
  have hunblank : Text.isBlank quote = false := by
    simp only [isQuote, Bool.or_eq_true, decide_eq_true_eq] at hquote
    rcases hquote with rfl | rfl <;> decide
  rw [assigned?, takeWhile_isBlank_append hbefore (by decide)]
  simp only [List.drop_left, takeWhile_isBlank_append hafter hunblank,
    quoted?_append hquote hvalue, Option.map_some]
  congr 2
  simp
  omega

/-- An attribute that a text begins with stands before those behind it. -/
theorem attributes_of_attributeAt? {c : Char} {front rest : Text} {found : Attribute}
    (h : attributeAt? (c :: (front ++ rest)) = some (found, front.length + 1)) :
    attributes (c :: (front ++ rest)) = found :: attributes rest := by
  rw [attributes, attributesFrom, h]
  show attributesFrom [found] front.length (front ++ rest) = _
  rw [attributesFrom_eq, List.drop_left]
  rfl

/-- **A text that begins with an attribute has it first**, and those of the rest after it. -/
theorem attributes_append {c quote : Char} {name before after value : Text}
    (hstart : isNameStart c = true) (hname : ∀ d ∈ name, isNameChar d = true)
    (hbefore : ∀ d ∈ before, Text.isBlank d = true) (hafter : ∀ d ∈ after, Text.isBlank d = true)
    (hquote : isQuote quote = true) (hvalue : quote ∉ value) (rest : Text) :
    attributes (c :: (name ++ (before ++ '=' :: (after ++ quote :: (value ++ quote :: rest))))) =
      ⟨c :: name, value⟩ :: attributes rest := by
  have hassigned := assigned?_append hbefore hafter hquote hvalue rest
  have hsplit : name ++ (before ++ '=' :: (after ++ quote :: (value ++ quote :: rest))) =
      name ++ (before ++ '=' :: (after ++ quote :: (value ++ [quote]))) ++ rest := by simp
  -- The name ends where the blanks or the equals sign begin.
  obtain ⟨d, others, hd, hends⟩ : ∃ d others, isNameChar d = false ∧
      before ++ '=' :: (after ++ quote :: (value ++ quote :: rest)) = d :: others := by
    cases before with
    | nil => exact ⟨'=', _, by decide +kernel, rfl⟩
    | cons d before => exact ⟨d, _, isNameChar_of_isBlank (hbefore d List.mem_cons_self), rfl⟩
  have htake : (name ++ d :: others).takeWhile isNameChar = name := by
    rw [List.takeWhile_append_of_pos hname]
    simp [hd]
  have hdrop : (name ++ d :: others).dropWhile isNameChar = d :: others := by
    rw [List.dropWhile_append_of_pos hname]
    simp [hd]
  rw [hends] at hassigned hsplit ⊢
  rw [hsplit]
  refine attributes_of_attributeAt? ?_
  rw [← hsplit, attributeAt?, if_pos hstart]
  simp only [htake, hdrop, hassigned, Option.map_some, List.length_cons, List.length_append]
  congr 2
  omega

/-! ### Spelling -/

/-- A text of blanks only. -/
structure Blanks where
  /-- The text. -/
  text : Text
  /-- All its characters are blanks. -/
  all_blank : text.all Text.isBlank = true

/-- Each character is a blank. -/
theorem Blanks.blank (blanks : Blanks) : ∀ c ∈ blanks.text, Text.isBlank c = true :=
  List.all_eq_true.mp blanks.all_blank

/-- Whether a text is the name of an attribute. -/
def isAttributeName : Text → Bool
  | [] => false
  | c :: name => isNameStart c && name.all isNameChar

/-- The attribute that names a member has the name of one. -/
theorem isAttributeName_name : isAttributeName "name".toList = true := by decide +kernel

/-- An attribute as a start tag spells it. -/
structure SpelledAttribute extends Attribute where
  /-- The blanks that separate the attribute from what stands before it. -/
  lead : Blanks
  /-- The attribute is separated from what stands before it. -/
  lead_ne_nil : lead.text ≠ []
  /-- The name is one of an attribute. -/
  is_name : isAttributeName name = true
  /-- The blanks before the equals sign. -/
  before : Blanks
  /-- The blanks after the equals sign. -/
  after : Blanks
  /-- The quote around the value. -/
  quote : Char
  /-- It is one of the quotes. -/
  is_quote : isQuote quote = true
  /-- The value does not hold its quote. -/
  quote_not_mem : quote ∉ value

/-- An attribute that is spelled behind one blank, in double quotes. -/
def SpelledAttribute.doubleQuoted (name value : Text) (h : isAttributeName name = true)
    (hvalue : '"' ∉ value) : SpelledAttribute where
  name := name
  value := value
  lead := ⟨[' '], by decide⟩
  lead_ne_nil := by decide
  is_name := h
  before := ⟨[], rfl⟩
  after := ⟨[], rfl⟩
  quote := '"'
  is_quote := rfl
  quote_not_mem := hvalue

/-- The text of a spelled attribute. -/
def SpelledAttribute.source (spelled : SpelledAttribute) : Text :=
  spelled.lead.text ++ (spelled.name ++ (spelled.before.text ++ '=' ::
    (spelled.after.text ++ spelled.quote :: (spelled.value ++ [spelled.quote]))))

/-- The content of the start tag of a member with some spelled attributes. -/
def spelledTag (element : Text) (spelled : List SpelledAttribute) (trail : Blanks)
    (isEmpty : Bool) : Text :=
  element ++ (spelled.flatMap SpelledAttribute.source ++ trail.text) ++
    if isEmpty then ['/'] else []

/-- A member element with some spelled attributes and nothing in it. -/
def spelledElement (element : Text) (spelled : List SpelledAttribute) (trail : Blanks)
    (isEmpty : Bool) : Text :=
  '<' :: spelledTag element spelled trail isEmpty ++ '>' ::
    if isEmpty then [] else '<' :: '/' :: element ++ ['>']

/-! ### The attributes of a tag -/

/-- **A text that begins with a spelled attribute has it first**, and those of the rest after it. -/
theorem SpelledAttribute.attributes_source_append (spelled : SpelledAttribute) (rest : Text) :
    attributes (spelled.source ++ rest) = spelled.toAttribute :: attributes rest := by
  obtain ⟨⟨name, value⟩, lead, -, is_name, before, after, quote, is_quote, quote_not_mem⟩ := spelled
  cases name with
  | nil => exact nomatch is_name
  | cons c name =>
    obtain ⟨hstart, hchars⟩ := (Bool.and_eq_true _ _).mp is_name
    have hsource := attributes_append hstart (List.all_eq_true.mp hchars) before.blank after.blank
      is_quote quote_not_mem rest
    simpa [source, attributes_append_blanks lead.blank] using hsource

/-- **The attributes found are those that have been spelled.** -/
theorem attributes_flatMap_source (spelled : List SpelledAttribute) (trail : Blanks) :
    attributes (spelled.flatMap SpelledAttribute.source ++ trail.text) =
      spelled.map SpelledAttribute.toAttribute := by
  induction spelled with
  | nil =>
    have htrail := attributes_append_blanks trail.blank []
    rwa [List.append_nil] at htrail
  | cons first others ih =>
    rw [List.flatMap_cons, List.append_assoc, first.attributes_source_append, ih, List.map_cons]

/-- The first attribute of some name is the first one spelled with it. -/
theorem attribute?_spelled (element : Text) (spelled : List SpelledAttribute) (trail : Blanks)
    (isEmpty : Bool) (name : Text) :
    Tag.attribute? ⟨element, spelled.flatMap SpelledAttribute.source ++ trail.text, isEmpty⟩ name =
      (spelled.find? fun found => found.name = name).map fun found =>
        decodeEntities found.value := by
  rw [Tag.attribute?, attributes_flatMap_source, List.find?_map, Option.map_map]
  simp only [Function.comp_def]

/-! ### Names of member elements -/

/-- A name that a member element can go by: one that a tag holds as it is. -/
structure IsElementName (element : Text) : Prop where
  /-- The name is not empty. -/
  ne_nil : element ≠ []
  /-- The name holds no blank. -/
  unblank : ∀ c ∈ element, Text.isBlank c = false
  /-- The name holds no character that ends it or the tag. -/
  plain : ∀ c ∈ element, c ∉ ['<', '>', '/', '"', '\x27']
  /-- The name does not begin a skipped construct. -/
  head : element.head? ≠ some '!' ∧ element.head? ≠ some '?'

instance (element : Text) : Decidable (IsElementName element) :=
  decidable_of_iff (element ≠ [] ∧ (element.all fun c => !Text.isBlank c) = true ∧
      (element.all fun c => c ∉ ['<', '>', '/', '"', '\x27']) = true ∧
      element.head? ≠ some '!' ∧ element.head? ≠ some '?')
    ⟨fun h => ⟨h.1, by simpa using h.2.1, by simpa using h.2.2.1, h.2.2.2⟩,
      fun h => ⟨h.ne_nil, by simpa using h.unblank, by simpa using h.plain, h.head⟩⟩

/-- The name of a member element holds neither an angle bracket nor a quote. -/
theorem IsElementName.unmarked {element : Text} (h : IsElementName element) :
    ∀ c ∈ element, c ∉ ['<', '>', '"', '\x27'] := by
  have hmarks : ['<', '>', '"', '\x27'] ⊆ ['<', '>', '/', '"', '\x27'] := by simp
  exact fun c hc hmem => h.plain c hc (hmarks hmem)

/-- Characters other than angle brackets and quotes may stand before the content of a tag. -/
theorem TagContent.append_plain {run content : Text}
    (hrun : ∀ c ∈ run, c ∉ ['<', '>', '"', '\x27']) (h : TagContent content) :
    TagContent (run ++ content) := by
  induction run with
  | nil => exact h
  | cons c run ih =>
    have hc := hrun c List.mem_cons_self
    simp only [List.mem_cons, List.not_mem_nil, or_false, not_or] at hc
    have hunquoted : isQuote c = false := by simp [isQuote, hc.2.2.1, hc.2.2.2]
    exact .character hc.1 hc.2.1 hunquoted
      (ih fun d hd => hrun d (List.mem_cons_of_mem c hd))

/-- The end tag of a member element closes its name. -/
theorem endTag_of_isElementName {element : Text} (h : IsElementName element) :
    EndTag element element where
  is_content := by
    have hplain : ∀ c ∈ '/' :: element, c ∉ ['<', '>', '"', '\x27'] :=
      List.forall_mem_cons.mpr ⟨by decide, h.unmarked⟩
    simpa using TagContent.append_plain hplain .nil
  name_eq := by
    have htrim : ∀ text : Text, (∀ c ∈ text, Text.isBlank c = false) →
        text.dropWhile Text.isBlank = text := by
      intro text htext
      cases text with
      | nil => rfl
      | cons c text => simp [htext c List.mem_cons_self]
    rw [Text.trim, htrim element h.unblank,
      htrim element.reverse fun c hc => h.unblank c (List.mem_reverse.mp hc), List.reverse_reverse]

/-! ### The end of a tag -/

/-- Neither a blank nor a character of a name is an angle bracket or a quote. -/
theorem unmarked_of_isBlank_or_isNameChar {c : Char}
    (h : Text.isBlank c = true ∨ isNameChar c = true) : c ∉ ['<', '>', '"', '\x27'] := by
  have hmarks : (['<', '>', '"', '\x27'].all fun d => !Text.isBlank d && !isNameChar d) = true := by
    decide +kernel
  intro hc
  have hneither := List.all_eq_true.mp hmarks c hc
  rcases h with h | h <;> simp [h] at hneither

/-- The name of an attribute is made of the characters of names. -/
theorem isNameChar_of_isAttributeName {name : Text} (h : isAttributeName name = true) :
    ∀ c ∈ name, isNameChar c = true := by
  cases name with
  | nil => exact nofun
  | cons c name =>
    obtain ⟨hstart, hchars⟩ := (Bool.and_eq_true _ _).mp h
    exact List.forall_mem_cons.mpr ⟨isNameChar_of_isNameStart hstart, List.all_eq_true.mp hchars⟩

/-- A spelled attribute may stand before the content of a tag. -/
theorem SpelledAttribute.tagContent_source_append (spelled : SpelledAttribute) {content : Text}
    (h : TagContent content) : TagContent (spelled.source ++ content) := by
  have hblanks : ∀ blanks : Blanks, ∀ c ∈ blanks.text, c ∉ ['<', '>', '"', '\x27'] :=
    fun blanks c hc => unmarked_of_isBlank_or_isNameChar (.inl (blanks.blank c hc))
  have hname : ∀ c ∈ spelled.name, c ∉ ['<', '>', '"', '\x27'] := fun c hc =>
    unmarked_of_isBlank_or_isNameChar (.inr (isNameChar_of_isAttributeName spelled.is_name c hc))
  have hvalue : TagContent (spelled.quote :: (spelled.value ++ spelled.quote :: content)) :=
    .quoted spelled.is_quote spelled.quote_not_mem h
  have hassigned :
      TagContent ('=' :: (spelled.after.text ++ spelled.quote :: (spelled.value ++
        spelled.quote :: content))) :=
    .character (by decide) (by decide) (by decide) (hvalue.append_plain (hblanks spelled.after))
  have hsource := ((hassigned.append_plain (hblanks spelled.before)).append_plain
    hname).append_plain (hblanks spelled.lead)
  simpa [source] using hsource

/-- A text of two parts does not end with a character that ends neither of them. -/
theorem getLast?_append_ne {first second : Text} {c : Char} (hfirst : first.getLast? ≠ some c)
    (hsecond : second.getLast? ≠ some c) : (first ++ second).getLast? ≠ some c := by
  rw [List.getLast?_append]
  cases hlast : second.getLast? with
  | none => simpa using hfirst
  | some d => simpa [hlast] using hsecond

/-- Spelled attributes and blanks do not end with a slash. -/
theorem getLast?_flatMap_source_ne (spelled : List SpelledAttribute) (trail : Blanks) :
    (spelled.flatMap SpelledAttribute.source ++ trail.text).getLast? ≠ some '/' := by
  refine getLast?_append_ne ?_ fun htrail => ?_
  · induction spelled with
    | nil => simp
    | cons first others ih =>
      refine getLast?_append_ne (fun hlast => ?_) ih
      have hquote : first.quote = '/' := by
        simpa [SpelledAttribute.source, List.getLast?_cons] using hlast
      have his := first.is_quote
      rw [hquote] at his
      exact absurd his (by decide)
  · have hblank := trail.blank '/' (List.mem_of_getLast? htrail)
    exact absurd hblank (by decide)

/-- **The start tag of a member ends behind its spelled attributes.** -/
theorem startTag_spelledTag {element : Text} (h : IsElementName element)
    (spelled : List SpelledAttribute) (trail : Blanks) (isEmpty : Bool) :
    StartTag (spelledTag element spelled trail isEmpty)
      ⟨element, spelled.flatMap SpelledAttribute.source ++ trail.text, isEmpty⟩ where
  is_content := by
    have hend : TagContent (trail.text ++ if isEmpty then ['/'] else []) := by
      refine TagContent.append_plain
        (fun c hc => unmarked_of_isBlank_or_isNameChar (.inl (trail.blank c hc))) ?_
      cases isEmpty
      · exact .nil
      · exact .character (by decide) (by decide) (by decide) .nil
    have hspelled : TagContent (spelled.flatMap SpelledAttribute.source ++
        (trail.text ++ if isEmpty then ['/'] else [])) := by
      induction spelled with
      | nil => exact hend
      | cons first others ih =>
        rw [List.flatMap_cons, List.append_assoc]
        exact first.tagContent_source_append ih
    simpa [spelledTag] using hspelled.append_plain h.unmarked
  head := by
    obtain ⟨c, rest, rfl⟩ := List.exists_cons_of_ne_nil h.ne_nil
    intro d hd
    obtain rfl : c = d := by simpa [spelledTag] using hd
    have hmarks : c ≠ '!' ∧ c ≠ '?' := by simpa using h.head
    have hslash : c ≠ '/' := fun heq => h.plain c List.mem_cons_self (by simp [heq])
    simp [hmarks, hslash]
  parts := rfl
  slash hempty := by
    obtain rfl : isEmpty = false := hempty
    have helement : element.getLast? ≠ some '/' := fun hlast =>
      h.plain '/' (List.mem_of_getLast? hlast) (by simp)
    have hlast := getLast?_append_ne helement (getLast?_flatMap_source_ne spelled trail)
    simpa [spelledTag] using hlast
  name_ne_nil := h.ne_nil
  name_unblank := h.unblank
  rest_blank c hc := by
    cases spelled with
    | nil => exact trail.blank c (List.mem_of_mem_head? hc)
    | cons first others =>
      obtain ⟨d, lead, hlead⟩ := List.exists_cons_of_ne_nil first.lead_ne_nil
      obtain rfl : d = c := by simpa [SpelledAttribute.source, hlead] using hc
      exact first.lead.blank d (by simp [hlead])

/-! ### Members -/

/-- **A member element is scanned into the member that its first `name` attribute names**, or is at
fault for want of one. -/
theorem scan_spelledElement {element : Text} (h : IsElementName element)
    (spelled : List SpelledAttribute) (trail : Blanks) (isEmpty : Bool) :
    scan element (spelledElement element spelled trail isEmpty) =
      match spelled.find? fun found => found.name = "name".toList with
      | some found => .ok [⟨decodeEntities found.value, []⟩]
      | none => .error ⟨1, .unnamedMember element⟩ := by
  have hstart := startTag_spelledTag h spelled trail isEmpty
  have hattribute := attribute?_spelled element spelled trail isEmpty "name".toList
  cases hfind : spelled.find? fun found => found.name = "name".toList with
  | some found =>
    rw [hfind] at hattribute
    have hdocuments : Documents element _ (some (decodeEntities found.value)) :=
      .member rfl hattribute
    refine Document.scan_eq ?_
    cases isEmpty with
    | true => exact .empty hstart rfl hdocuments .nil
    | false =>
      exact .element hstart rfl hdocuments .nil (endTag_of_isElementName h) .nil
  | none =>
    rw [hfind] at hattribute
    have hconstruct := construct_of_tagContent hstart.is_content hstart.head
      (if isEmpty then [] else '<' :: '/' :: element ++ ['>'])
    rw [hstart.ofContent_eq] at hconstruct
    have hfaulty : Faulty element [] (construct (spelledTag element spelled trail isEmpty ++ '>' ::
        if isEmpty then [] else '<' :: '/' :: element ++ ['>'])) (.unnamedMember element) :=
      hconstruct ▸ .unnamedMember h.ne_nil rfl hattribute
    have hopen : LeavesOpen element [] [] := .document .nil
    exact (Located.atConstruct rfl hopen hfaulty).scan_eq

/-- **The first `name` attribute decides.** A member element with some spelled attributes is scanned
into one member, named by the decoded value of its first `name` attribute; without one, it is at
fault, and the message says so. An attribute of another name may be left out, whatever its value
looks like, and also if its name begins or ends with this one. -/
theorem spelledElement_named {element : Text} (h : IsElementName element)
    (spelled : List SpelledAttribute) (trail : Blanks) (isEmpty : Bool) :
    (scan element (spelledElement element spelled trail isEmpty) =
      match spelled.find? fun found => found.name = "name".toList with
      | some found => .ok [⟨decodeEntities found.value, []⟩]
      | none => .error ⟨1, .unnamedMember element⟩) ∧
    (SyntaxReason.unnamedMember element).message =
      '<' :: element ++ "> without a name attribute".toList ∧
    ∀ front other back, spelled = front ++ other :: back → other.name ≠ "name".toList →
      scan element (spelledElement element spelled trail isEmpty) =
        scan element (spelledElement element (front ++ back) trail isEmpty) := by
  refine ⟨scan_spelledElement h spelled trail isEmpty, rfl, ?_⟩
  rintro front other back rfl hother
  have hfind : (front ++ other :: back).find? (fun found => found.name = "name".toList) =
      (front ++ back).find? fun found => found.name = "name".toList := by
    rw [List.find?_append, List.find?_append, List.find?_cons_of_neg (by simpa using hother)]
  rw [scan_spelledElement h, scan_spelledElement h, hfind]

/-- An attribute whose name ends with the word and whose value looks like the end of the tag and
like the attribute looked for. -/
def surname : SpelledAttribute :=
  .doubleQuoted "surname".toList "/> <m name='Z'".toList (by decide +kernel) (by decide)

/-- The attribute looked for, on two lines. -/
def lateName : SpelledAttribute where
  name := "name".toList
  value := "\"A&lt;B\"".toList
  lead := ⟨['\n', ' '], by decide⟩
  lead_ne_nil := by decide
  is_name := isAttributeName_name
  before := ⟨[' '], by decide⟩
  after := ⟨['\n'], by decide⟩
  quote := '\x27'
  is_quote := rfl
  quote_not_mem := by decide

/-- The second attribute names the member, and the first alone names none. -/
theorem spelledElement_named_lateName :
    scan ['m'] "<m surname=\"/> <m name='Z'\"\n name =\n'\"A&lt;B\"'></m>".toList =
        .ok [⟨"\"A<B\"".toList, []⟩] ∧
      scan ['m'] "<m surname=\"/> <m name='Z'\"/>".toList = .error ⟨1, .unnamedMember ['m']⟩ := by
  have hname : IsElementName ['m'] := by decide
  have hboth := (spelledElement_named hname [surname, lateName] ⟨[], by decide⟩ false).1
  have hfirst := (spelledElement_named hname [surname] ⟨[], by decide⟩ true).1
  exact ⟨hboth, hfirst⟩

end Markup

end SymbolDocs
