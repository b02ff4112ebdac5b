import SymbolDocs.Proofs.Markup.Grammar
set_option autoImplicit false

/-!
# Tokens and the grammar

The tokens of a text are found one after the other, each by the construct that the text begins with.
What begins with a finished token begins with a construct of the grammar, and the other way round.

## Main definitions

* `Markup.Begins` — a text begins with a token, and what follows it.
* `Markup.Lexes` — the tokens of a text, one after the other.

## Main results

* `Markup.tokens_character`, `Markup.tokens_construct` — the token a text begins with, and the
  tokens of the rest.
* `Markup.tokens_of_begins` — a construct of the grammar is the first token, whatever follows it.
* `Markup.construct_prefix` — a construct cut short lacks its end.
* `Markup.lexes_tokens` — every text is lexed into its tokens.
-/

namespace SymbolDocs

namespace Markup

/-! ### The first token -/

/-- The tokens found so far stand before those of the text behind the skipped characters. -/
theorem tokensFrom_eq (done : List Token) (skipped : Nat) (text : Text) :
    tokensFrom done skipped text = done.reverse ++ tokens (text.drop skipped) := by
  induction text generalizing done skipped with
  | nil => simp [tokensFrom, tokens]
  | cons c text ih =>
    cases skipped with
    | succ skipped => rw [tokensFrom, ih, List.drop_succ_cons]
    | zero =>
      rw [List.drop_zero, tokens, tokensFrom, tokensFrom]
      split
      · cases construct text <;> simp [ih]
      · simp [ih]

/-- A character other than `<` is a token of its own. -/
theorem tokens_character {c : Char} (h : c ≠ '<') (rest : Text) :
    tokens (c :: rest) = .character c :: tokens rest := by
  rw [tokens, tokensFrom, if_neg h, tokensFrom_eq]
  rfl

/-- A construct without its end is the last token. -/
theorem tokens_unfinished {text : Text} {kind : Construct} (h : construct text = .unfinished kind) :
    tokens ('<' :: text) = [.unfinished kind] := by
  rw [tokens, tokensFrom, if_pos rfl, h]
  rfl

/-- A construct with its end is a token, and the tokens of the rest follow it. -/
theorem tokens_construct {source rest : Text} {token : Token}
    (h : construct (source ++ rest) = token) (hsource : token.source = '<' :: source) :
    tokens ('<' :: (source ++ rest)) = token :: tokens rest := by
  have hlength : token.source.length - 1 = source.length := by
    rw [hsource, List.length_cons]
    omega
  rw [tokens, tokensFrom, if_pos rfl, h]
  cases token with
  | unfinished kind => simp [Token.source] at hsource
  | _ => simp only [tokensFrom_eq, hlength, List.drop_left]; rfl

/-! ### The content of tags -/

/-- A quoted value is passed over up to its quote. -/
theorem tagContent?_quoted {quote : Char} {value : Text} (h : quote ∉ value) (done rest : Text) :
    tagContent? done (some quote) (value ++ quote :: rest) =
      tagContent? (quote :: (value.reverse ++ done)) none rest := by
  induction value generalizing done with
  | nil => simp [tagContent?]
  | cons c value ih =>
    obtain ⟨hc, hvalue⟩ := not_or.mp (mt List.mem_cons.mpr h)
    rw [List.cons_append, tagContent?, if_neg (Ne.symm hc), ih hvalue]
    simp

/-- **The content of a tag is read up to the first `>` outside quotes.** -/
theorem TagContent.tagContent?_eq {content : Text} (h : TagContent content) (done rest : Text) :
    tagContent? done none (content ++ '>' :: rest) = some (done.reverse ++ content) := by
  induction h generalizing done with
  | nil => simp [tagContent?]
  | @character c content hless hgreater hquote _ ih =>
    rw [List.cons_append, tagContent?]
    simp [hless, hgreater, hquote, ih]
  | @quoted quote value content hquote hvalue _ ih =>
    have hless : quote ≠ '<' := fun heq => by simp [heq, isQuote] at hquote
    have hgreater : quote ≠ '>' := fun heq => by simp [heq, isQuote] at hquote
    rw [List.cons_append, List.append_assoc, List.cons_append, tagContent?]
    simp only [hless, hgreater, hquote, if_false, if_true]
    rw [tagContent?_quoted hvalue, ih]
    simp

/-- The content of a tag from some place on, where a quote may be open. -/
def ContentFrom : Option Char → Text → Prop
  | none, content => TagContent content
  | some quote, content =>
    ∃ value after, content = value ++ quote :: after ∧ quote ∉ value ∧ TagContent after

/-- What is read as the content of a tag is content up to a `>`. -/
theorem exists_of_tagContent? {text done content : Text} {quote : Option Char}
    (h : tagContent? done quote text = some content) :
    ∃ inner rest, text = inner ++ '>' :: rest ∧ content = done.reverse ++ inner ∧
      ContentFrom quote inner := by
  induction text generalizing done quote with
  | nil => simp [tagContent?] at h
  | cons c text ih =>
    cases quote with
    | some q =>
      rw [tagContent?] at h
      obtain ⟨inner, rest, rfl, rfl, hinner⟩ := ih h
      refine ⟨c :: inner, rest, rfl, by simp, ?_⟩
      by_cases hc : c = q
      · rw [if_pos hc] at hinner
        exact ⟨[], inner, by rw [hc]; rfl, List.not_mem_nil, hinner⟩
      · rw [if_neg hc] at hinner
        obtain ⟨value, after, rfl, hvalue, hafter⟩ := hinner
        refine ⟨c :: value, after, rfl, ?_, hafter⟩
        exact mt List.mem_cons.mp (not_or.mpr ⟨Ne.symm hc, hvalue⟩)
    | none =>
      rw [tagContent?] at h
      by_cases hgreater : c = '>'
      · rw [if_pos hgreater] at h
        exact ⟨[], text, by rw [hgreater]; rfl, by simpa using h.symm, TagContent.nil⟩
      · rw [if_neg hgreater] at h
        by_cases hless : c = '<'
        · simp [hless] at h
        · rw [if_neg hless] at h
          obtain ⟨inner, rest, rfl, rfl, hinner⟩ := ih h
          refine ⟨c :: inner, rest, rfl, by simp, ?_⟩
          cases hquote : isQuote c with
          | false =>
            rw [hquote] at hinner
            exact TagContent.character hless hgreater hquote hinner
          | true =>
            rw [hquote] at hinner
            obtain ⟨value, after, rfl, hvalue, hafter⟩ := hinner
            exact TagContent.quoted hquote hvalue hafter

/-! ### Skipped constructs -/

/-- A construct is skipped up to its first terminator. -/
theorem skippedToken_eq_iff {kind : Construct} {terminator text source : Text} :
    skippedToken kind terminator text = .skipped source ↔
      ∃ rest, '<' :: text = source ++ rest ∧ Text.EndsFirst terminator source := by
  rw [skippedToken]
  constructor
  · intro h
    split at h
    · next before rest hcut =>
      obtain rfl := Token.skipped.inj h
      exact ⟨rest, Text.cutAt_eq_some_iff.mp hcut⟩
    · exact absurd h (by simp)
  · rintro ⟨rest, htext, hends⟩
    obtain ⟨before, rfl⟩ := hends.1
    rw [Text.cutAt_eq_some_iff.mpr ⟨htext, hends⟩]

/-- A token of a construct to be skipped is a skipped one or lacks its end. -/
theorem skippedToken_cases (kind : Construct) (terminator text : Text) :
    (∃ source, skippedToken kind terminator text = .skipped source) ∨
      skippedToken kind terminator text = .unfinished kind := by
  rw [skippedToken]
  split
  · exact .inl ⟨_, rfl⟩
  · exact .inr rfl

/-- A text behind a `<` begins with a lead where the whole begins with the `<` and the lead. -/
theorem isPrefixOf_iff {lead text : Text} :
    lead.isPrefixOf text = true ↔ '<' :: lead <+: '<' :: text := by
  rw [List.isPrefixOf_iff_prefix, List.cons_prefix_cons]
  simp

/-- A skipped construct holds a `>`. -/
theorem Skipped.greater_mem {source : Text} (h : Skipped source) : '>' ∈ source := by
  cases h with
  | comment _ ends => exact ends.1.subset (by decide)
  | characterData _ ends => exact ends.1.subset (by decide)
  | instruction _ ends => exact ends.1.subset (by decide)
  | declaration _ _ _ ends => exact ends.1.subset (by decide)

/-- A skipped construct begins with a `<`. -/
theorem Skipped.exists_cons {source : Text} (h : Skipped source) :
    ∃ inner, source = '<' :: inner := by
  have hlead : ∀ lead : Text, '<' :: lead <+: source → ∃ inner, source = '<' :: inner := by
    rintro lead ⟨rest, rfl⟩
    exact ⟨lead ++ rest, rfl⟩
  cases h with
  | comment lead _ => exact hlead _ lead
  | characterData lead _ => exact hlead _ lead
  | instruction lead _ => exact hlead _ lead
  | declaration lead _ _ _ => exact hlead _ lead

/-- **A skipped construct of the grammar is skipped**, whatever follows it.

**Proof sketch.** The leads hold no `>`, so that the construct begins with a lead exactly when the
whole text does. -/
theorem Skipped.construct_eq {inner : Text} (h : Skipped ('<' :: inner)) (rest : Text) :
    construct (inner ++ rest) = .skipped ('<' :: inner) := by
  have hlead : ∀ lead : Text, '>' ∉ '<' :: lead →
      (lead.isPrefixOf (inner ++ rest) = true ↔ '<' :: lead <+: '<' :: inner) := by
    intro lead hlead
    rw [isPrefixOf_iff, ← List.cons_append, Text.prefix_append_iff hlead h.greater_mem]
  have htoken : ∀ {kind : Construct} {terminator : Text},
      Text.EndsFirst terminator ('<' :: inner) →
        skippedToken kind terminator (inner ++ rest) = .skipped ('<' :: inner) :=
    fun hends => skippedToken_eq_iff.mpr ⟨rest, rfl, hends⟩
  have hcomment := hlead "!--".toList (by decide)
  have hdata := hlead "![CDATA[".toList (by decide)
  have hinstruction := hlead "?".toList (by decide)
  have hdeclaration := hlead "!".toList (by decide)
  rw [construct]
  cases h with
  | comment lead ends => rw [if_pos (hcomment.mpr lead), htoken ends]
  | characterData lead ends =>
    have hfirst : ¬ '<' :: "!--".toList <+: '<' :: inner := by
      obtain ⟨tail, htail⟩ := lead
      rw [← htail]
      simp
    rw [if_neg (mt hcomment.mp hfirst), if_pos (hdata.mpr lead), htoken ends]
  | instruction lead ends =>
    have hfirst : ∀ lead : Text, '?' ∉ lead.head? → lead ≠ [] → ¬ '<' :: lead <+: '<' :: inner := by
      obtain ⟨tail, htail⟩ := lead
      rw [← htail]
      intro lead hhead hne
      obtain ⟨c, lead, rfl⟩ := List.exists_cons_of_ne_nil hne
      have hc : c ≠ '?' := by simpa [eq_comm] using hhead
      simp [hc]
    rw [if_neg (mt hcomment.mp (hfirst _ (by decide) (by decide))),
      if_neg (mt hdata.mp (hfirst _ (by decide) (by decide))), if_pos (hinstruction.mpr lead),
      htoken ends]
  | declaration lead not_comment not_data ends =>
    have hfirst : ¬ '<' :: "?".toList <+: '<' :: inner := by
      obtain ⟨tail, htail⟩ := lead
      rw [← htail]
      simp
    rw [if_neg (mt hcomment.mp not_comment), if_neg (mt hdata.mp not_data),
      if_neg (mt hinstruction.mp hfirst), if_pos (hdeclaration.mpr lead), htoken ends]

/-! ### Tags -/

/-- What begins with neither an exclamation mark nor a question mark is a tag. -/
theorem construct_eq_tagToken {text : Text} (h : ∀ c ∈ text.head?, c ≠ '!' ∧ c ≠ '?') :
    construct text = tagToken text := by
  cases text with
  | nil => rfl
  | cons c text =>
    obtain ⟨hmark, hquestion⟩ := h c rfl
    simp [construct, Ne.symm hmark, Ne.symm hquestion]

/-- An end tag of the grammar is an end tag, whatever follows it. -/
theorem EndTag.construct_eq {ending name : Text} (h : EndTag ending name) (rest : Text) :
    construct ('/' :: ending ++ '>' :: rest) = .close ('<' :: '/' :: ending ++ ['>']) name := by
  have hcontent := h.is_content.tagContent?_eq [] rest
  rw [construct_eq_tagToken (by simp), tagToken, hcontent, ← h.name_eq]
  rfl

/-- The content of a tag that begins neither an end tag nor a skipped construct is that of a start
tag, whatever follows it. -/
theorem construct_of_tagContent {content : Text} (h : TagContent content)
    (hhead : ∀ c ∈ content.head?, c ∉ ['!', '?', '/']) (rest : Text) :
    construct (content ++ '>' :: rest) = .open ('<' :: content ++ ['>']) (.ofContent content) := by
  have hcontent := h.tagContent?_eq [] rest
  have hmark : ∀ c ∈ (content ++ '>' :: rest).head?, c ≠ '!' ∧ c ≠ '?' := by
    intro c hc
    cases content with
    | nil =>
      obtain rfl : '>' = c := by simpa using hc
      decide
    | cons d content =>
      have hd := hhead c hc
      simp only [List.mem_cons, List.not_mem_nil, or_false, not_or] at hd
      exact ⟨hd.1, hd.2.1⟩
  rw [construct_eq_tagToken hmark, tagToken, hcontent]
  cases content with
  | nil => rfl
  | cons d content =>
    have hd : d ≠ '/' := fun heq => hhead d rfl (by simp [heq])
    simp [hd]

/-! ### Lexing -/

/-- A text begins with a token of the grammar, and the rest follows it. -/
inductive Begins : Text → Token → Text → Prop where
  /-- A character outside any construct. -/
  | character {c : Char} {rest : Text} (plain : c ≠ '<') :
      Begins (c :: rest) (.character c) rest
  /-- A skipped construct. -/
  | skipped {inner rest : Text} (construct : Skipped ('<' :: inner)) :
      Begins ('<' :: (inner ++ rest)) (.skipped ('<' :: inner)) rest
  /-- An end tag. -/
  | close {ending name rest : Text} (tag : EndTag ending name) :
      Begins ('<' :: '/' :: ending ++ '>' :: rest) (.close ('<' :: '/' :: ending ++ ['>']) name)
        rest
  /-- A start tag, perhaps without a name. -/
  | «open» {content rest : Text} (is_content : TagContent content)
      (head : ∀ c ∈ content.head?, c ∉ ['!', '?', '/']) :
      Begins ('<' :: content ++ '>' :: rest) (.open ('<' :: content ++ ['>']) (.ofContent content))
        rest

/-- **What a text begins with is its first token**, and the tokens of the rest follow it. -/
theorem tokens_of_begins {text rest : Text} {token : Token} (h : Begins text token rest) :
    tokens text = token :: tokens rest := by
  cases h with
  | character plain => exact tokens_character plain rest
  | skipped construct => exact tokens_construct (construct.construct_eq rest) rfl
  | @close ending name rest tag =>
    have hconstruct := tag.construct_eq rest
    rw [List.append_cons, List.cons_append] at hconstruct ⊢
    exact tokens_construct hconstruct rfl
  | @«open» content rest is_content head =>
    have hconstruct := construct_of_tagContent is_content head rest
    rw [List.append_cons] at hconstruct ⊢
    exact tokens_construct hconstruct rfl

/-- A token is what it was read from. -/
theorem Begins.eq_append {text rest : Text} {token : Token} (h : Begins text token rest) :
    text = token.source ++ rest := by
  cases h <;> simp [Token.source]

/-- A token is read from at least one character. -/
theorem Begins.length_lt {text rest : Text} {token : Token} (h : Begins text token rest) :
    rest.length < text.length := by
  have hlength : text.length = token.source.length + rest.length := by
    rw [h.eq_append, List.length_append]
  have hsource : 0 < token.source.length := by
    cases h <;> simp [Token.source]
  omega

/-- A construct to be skipped lacks its end or is one of the grammar. -/
theorem skippedToken_begins {kind : Construct} {terminator text : Text}
    (h : ∀ source, source <+: '<' :: text → Text.EndsFirst terminator source → Skipped source) :
    skippedToken kind terminator text = .unfinished kind ∨
      ∃ rest, Begins ('<' :: text) (skippedToken kind terminator text) rest := by
  rcases skippedToken_cases kind terminator text with ⟨source, htoken⟩ | htoken
  · obtain ⟨rest, htext, hends⟩ := skippedToken_eq_iff.mp htoken
    have hskipped := h source ⟨rest, htext.symm⟩ hends
    obtain ⟨inner, rfl⟩ := hskipped.exists_cons
    obtain rfl : text = inner ++ rest := (List.cons.inj htext).2
    rw [htoken]
    exact .inr ⟨rest, .skipped hskipped⟩
  · exact .inl htoken

/-- A tag lacks its end or is one of the grammar. -/
theorem tagToken_begins {text : Text} (h : ∀ c ∈ text.head?, c ≠ '!' ∧ c ≠ '?') :
    tagToken text = .unfinished .tag ∨ ∃ rest, Begins ('<' :: text) (tagToken text) rest := by
  cases hcontent : tagContent? [] none text with
  | none =>
    left
    rw [tagToken, hcontent]
  | some content =>
    right
    obtain ⟨inner, rest, rfl, -, hinner⟩ := exists_of_tagContent? hcontent
    rw [← construct_eq_tagToken h]
    refine ⟨rest, ?_⟩
    by_cases hslash : inner.head? = some '/'
    · obtain ⟨ending, rfl⟩ := List.head?_eq_some_iff.mp hslash
      have htag : EndTag ending (Text.trim Text.isBlank ending) := ⟨hinner, rfl⟩
      rw [htag.construct_eq rest]
      exact .close htag
    · have hhead : ∀ c ∈ inner.head?, c ∉ ['!', '?', '/'] := by
        intro c hc hmem
        have hmark := h c (by cases inner <;> simp_all)
        obtain rfl : c = '/' := by simpa [hmark.1, hmark.2] using hmem
        exact hslash hc
      rw [construct_of_tagContent hinner hhead rest]
      exact .open hinner hhead

/-- **A construct lacks its end or is one of the grammar.** -/
theorem construct_begins (text : Text) :
    (∃ kind, construct text = .unfinished kind) ∨
      ∃ rest, Begins ('<' :: text) (construct text) rest := by
  -- a construct begins with the lead that the text begins with
  have hlead : ∀ {lead source terminator : Text}, '>' ∉ '<' :: lead → '>' ∈ terminator →
      source <+: '<' :: text → Text.EndsFirst terminator source →
        (lead.isPrefixOf text = true ↔ '<' :: lead <+: source) := by
    intro lead source terminator hfree hmem hsource hends
    obtain ⟨rest, hrest⟩ := hsource
    rw [isPrefixOf_iff, ← hrest, Text.prefix_append_iff hfree (hends.1.subset hmem)]
  have hskip : ∀ {kind : Construct} {terminator : Text},
      (∀ source, source <+: '<' :: text → Text.EndsFirst terminator source → Skipped source) →
        (∃ k, skippedToken kind terminator text = .unfinished k) ∨
          ∃ rest, Begins ('<' :: text) (skippedToken kind terminator text) rest :=
    fun h => (skippedToken_begins h).imp_left fun htoken => ⟨_, htoken⟩
  rw [construct]
  split
  · next hcomment =>
    exact hskip fun source hsource hends =>
      .comment ((hlead (by decide) (by decide) hsource hends).mp hcomment) hends
  · next hcomment =>
    split
    · next hdata =>
      exact hskip fun source hsource hends =>
        .characterData ((hlead (by decide) (by decide) hsource hends).mp hdata) hends
    · next hdata =>
      split
      · next hinstruction =>
        exact hskip fun source hsource hends =>
          .instruction ((hlead (by decide) (by decide) hsource hends).mp hinstruction) hends
      · next hinstruction =>
        split
        · next hdeclaration =>
          exact hskip fun source hsource hends =>
            .declaration ((hlead (by decide) (by decide) hsource hends).mp hdeclaration)
              (mt (hlead (by decide) (by decide) hsource hends).mpr hcomment)
              (mt (hlead (by decide) (by decide) hsource hends).mpr hdata) hends
        · next hdeclaration =>
          refine (tagToken_begins fun c hc => ?_).imp_left fun htoken => ⟨_, htoken⟩
          cases text with
          | nil => simp at hc
          | cons d text =>
            obtain rfl : d = c := by simpa using hc
            refine ⟨fun heq => hdeclaration ?_, fun heq => hinstruction ?_⟩
            · rw [heq]; rfl
            · rw [heq]; rfl

/-! ### Constructs cut short -/

/-- What a text begins with does not depend on what follows it. -/
theorem Begins.append {text rest : Text} {token : Token} (h : Begins text token rest)
    (more : Text) : Begins (text ++ more) token (rest ++ more) := by
  cases h with
  | character plain => exact .character plain
  | @skipped inner rest construct =>
    rw [List.cons_append, List.append_assoc]
    exact .skipped construct
  | @close ending name rest tag =>
    rw [List.append_assoc, List.cons_append]
    exact .close tag
  | @«open» content rest is_content head =>
    rw [List.append_assoc, List.cons_append]
    exact .open is_content head

/-- A text begins with a character outside any construct, or with a construct, which is read from
its own text alone. -/
theorem Begins.character_or_construct {text rest : Text} {token : Token}
    (h : Begins text token rest) :
    (∃ c ≠ '<', text = c :: rest ∧ token = .character c) ∨
      ∃ inner, text = '<' :: inner ∧ construct inner = token := by
  cases h with
  | @character c _ plain => exact .inl ⟨c, plain, rfl, rfl⟩
  | skipped construct => exact .inr ⟨_, rfl, construct.construct_eq rest⟩
  | close tag => exact .inr ⟨_, rfl, tag.construct_eq rest⟩
  | «open» is_content head => exact .inr ⟨_, rfl, construct_of_tagContent is_content head rest⟩

/-- What a text behind a `<` begins with is the construct there. -/
theorem Begins.construct_eq {text rest : Text} {token : Token}
    (h : Begins ('<' :: text) token rest) : construct text = token := by
  rcases h.character_or_construct with ⟨c, hc, htext, -⟩ | ⟨inner, htext, hconstruct⟩
  · exact absurd (List.cons.inj htext).1.symm hc
  · rwa [(List.cons.inj htext).2]

/-- **A construct cut short lacks its end**, unless it is read whole. -/
theorem construct_prefix {cut text : Text} (h : cut <+: text) :
    (∃ kind, construct cut = .unfinished kind) ∨ construct cut = construct text := by
  obtain ⟨more, rfl⟩ := h
  refine (construct_begins cut).imp_right fun ⟨rest, hbegins⟩ => ?_
  exact ((hbegins.append more).construct_eq).symm

/-- A construct is the first token of the text that begins with it. -/
theorem exists_tokens_construct (text : Text) :
    ∃ following, tokens ('<' :: text) = construct text :: following := by
  rcases construct_begins text with ⟨kind, hkind⟩ | ⟨rest, hbegins⟩
  · exact ⟨[], by rw [tokens_unfinished hkind, hkind]⟩
  · exact ⟨tokens rest, tokens_of_begins hbegins⟩

/-! ### All tokens -/

/-- The tokens of a text, each read where the one before it ends. A construct without its end is the
last token. -/
inductive Lexes : Text → List Token → Prop where
  /-- The empty text. -/
  | nil : Lexes [] []
  /-- A construct without its end. -/
  | unfinished {text : Text} {kind : Construct} (no_end : construct text = .unfinished kind) :
      Lexes ('<' :: text) [.unfinished kind]
  /-- A first token, and those of the rest. -/
  | cons {text rest : Text} {token : Token} {following : List Token}
      (first : Begins text token rest) (lexes : Lexes rest following) :
      Lexes text (token :: following)

/-- **Every text is lexed into its tokens.**

**Proof sketch.** By induction on the length of the text: what follows a token is shorter. -/
theorem lexes_tokens (text : Text) : Lexes text (tokens text) := by
  induction hlength : text.length using Nat.strongRecOn generalizing text with
  | ind length ih =>
    have hrest : ∀ {rest : Text} {token : Token}, Begins text token rest →
        Lexes text (tokens text) := by
      intro rest token hbegins
      rw [tokens_of_begins hbegins]
      exact .cons hbegins (ih rest.length (hlength ▸ hbegins.length_lt) rest rfl)
    cases text with
    | nil => exact .nil
    | cons c text =>
      by_cases hc : c = '<'
      · subst hc
        rcases construct_begins text with ⟨kind, hkind⟩ | ⟨rest, hbegins⟩
        · rw [tokens_unfinished hkind]
          exact .unfinished hkind
        · exact hrest hbegins
      · exact hrest (.character hc)

end Markup

end SymbolDocs
