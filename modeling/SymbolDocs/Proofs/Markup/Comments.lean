import SymbolDocs.Proofs.Markup.Concatenation
set_option autoImplicit false

/-!
# Comments

What stands in a comment is not read as markup, as long as the comment does not end before its text
does. It ends early where the text holds `-->`, but also where the text begins with `>` or `->`.

## Main results

* `Markup.skipped_comment` — a text in comment marks is a comment, if it does not end one early.
* `Markup.scan_append_skipped` — a skipped construct between two documents adds no member.
* `Markup.scan_commented` — what a comment between two texts adds to their members.
* `Markup.commented_member_found` — a member in comment marks that is found all the same.

## Design

A comment ends with the first `-->` counted from its `<`, so that the hyphens of its beginning may
be those of its end. The texts that end a comment early are therefore those that hold `-->` when two
hyphens are put in front of them.
-/

namespace SymbolDocs

namespace Markup

/-- The end of a comment stands behind two hyphens and a text when the text holds it, or begins with
what completes it. -/
theorem closing_infix_iff (text : Text) :
    "-->".toList <:+: "--".toList ++ text ↔
      ">".toList <+: text ∨ "->".toList <+: text ∨ "-->".toList <:+: text := by
  show ['-', '-', '>'] <:+: '-' :: '-' :: text ↔
    ['>'] <+: text ∨ ['-', '>'] <+: text ∨ ['-', '-', '>'] <:+: text
  simp [List.infix_cons_iff, List.cons_prefix_cons]

/-- **A text in comment marks is a comment**, if it does not end one early. -/
theorem skipped_comment {text : Text} (h : ¬ "-->".toList <:+: "--".toList ++ text) :
    Skipped ("<!--".toList ++ text ++ "-->".toList) := by
  have hfree : ¬ ['-', '-'] ++ ['>'] <:+: '<' :: '!' :: ("--".toList ++ text) := by
    simpa [List.infix_cons_iff, List.cons_prefix_cons] using h
  refine .comment ?_ (Text.endsFirst_append (by decide) hfree)
  rw [List.append_assoc]
  exact List.prefix_append _ _

/-- What ends a comment early is one with the beginning of the comment. -/
theorem skipped_comment_early {lead : Text} (h : lead ∈ [">".toList, "->".toList]) :
    Skipped ("<!--".toList ++ lead) := by
  have hends : ∀ front : Text, ¬ ['-', '-'] ++ ['>'] <:+: front →
      Text.EndsFirst "-->".toList (front ++ "-->".toList) :=
    fun front hfront => Text.endsFirst_append (by decide) hfront
  refine .comment (List.prefix_append _ _) ?_
  simp only [List.mem_cons, List.not_mem_nil, or_false] at h
  rcases h with rfl | rfl
  · exact hends "<!".toList (by decide)
  · exact hends "<!-".toList (by decide)

/-- A skipped construct is scanned alone, and has no members. -/
theorem Skipped.scan_eq {source : Text} (h : Skipped source) (memberElement : Text) :
    scan memberElement source = .ok [] := by
  have hdocument : Document memberElement (source ++ []) [] := .skipped h .nil
  rw [List.append_nil] at hdocument
  exact hdocument.scan_eq

/-- **A skipped construct between two documents adds no member.** -/
theorem scan_append_skipped {memberElement first source second : Text}
    {members others : List MemberBlock} (hfirst : scan memberElement first = .ok members)
    (hsource : Skipped source) :
    scan memberElement (first ++ source ++ second) = .ok (members ++ others) ↔
      scan memberElement second = .ok others := by
  have hboth : scan memberElement (first ++ source) = .ok members := by
    rw [scan_append_eq hfirst, hsource.scan_eq]
    exact congrArg Except.ok (List.append_nil members)
  rw [scan_append_eq hboth, map_eq_ok]
  constructor
  · rintro ⟨found, hfound, heq⟩
    rw [← List.append_cancel_left heq]
    exact mapError_eq_ok.mp hfound
  · exact fun hsecond => ⟨others, mapError_eq_ok.mpr hsecond, rfl⟩

/-- **What a comment between two documents adds to their members.** Let a text hold no `-->`. In
comment marks it adds nothing, unless it begins with `>` or `->`. If it does, the comment ends with
this, and the rest of the text is read as markup, in front of the second document. -/
theorem scan_commented {memberElement first second text : Text} {members others : List MemberBlock}
    (hfirst : scan memberElement first = .ok members)
    (hsecond : scan memberElement second = .ok others) (htext : ¬ "-->".toList <:+: text) :
    (¬ ">".toList <+: text → ¬ "->".toList <+: text →
      scan memberElement (first ++ "<!--".toList ++ text ++ "-->".toList ++ second) =
        .ok (members ++ others)) ∧
    ∀ lead ∈ [">".toList, "->".toList], ∀ rest, text = lead ++ rest → ∀ found,
      (scan memberElement (first ++ "<!--".toList ++ text ++ "-->".toList ++ second) =
          .ok (members ++ found) ↔
        scan memberElement (rest ++ "-->".toList ++ second) = .ok found) := by
  refine ⟨fun hgreater hhyphen => ?_, fun lead hlead rest hrest found => ?_⟩
  · have hopen : ¬ "-->".toList <:+: "--".toList ++ text := by
      rw [closing_infix_iff]
      rintro (h | h | h)
      · exact hgreater h
      · exact hhyphen h
      · exact htext h
    have hscan := (scan_append_skipped hfirst (skipped_comment hopen)).mpr hsecond
    simpa only [List.append_assoc] using hscan
  · have hearly : Skipped ("<!--".toList ++ lead) := skipped_comment_early hlead
    have hwhole : first ++ "<!--".toList ++ text ++ "-->".toList ++ second =
        first ++ ("<!--".toList ++ lead) ++ (rest ++ "-->".toList ++ second) := by
      rw [hrest]
      simp only [List.append_assoc]
    rw [hwhole]
    exact scan_append_skipped hfirst hearly

set_option maxRecDepth 4000 in
/-- Between two members, an unfinished tag in comment marks adds nothing. Behind a `>` in comment
marks a third member is found. -/
theorem scan_commented_memberTags :
    scan "member".toList ("<member name='A'/>".toList ++ "<!--".toList ++ "<member".toList ++
        "-->".toList ++ "<member name='B'/>".toList) = .ok ([⟨['A'], []⟩] ++ [⟨['B'], []⟩]) ∧
      scan "member".toList ("<member name='A'/>".toList ++ "<!--".toList ++
        "><member name='C'/>".toList ++ "-->".toList ++ "<member name='B'/>".toList) =
          .ok ([⟨['A'], []⟩] ++ [⟨['C'], []⟩, ⟨['B'], []⟩]) := by
  have hfirst : scan "member".toList "<member name='A'/>".toList = .ok [⟨['A'], []⟩] := rfl
  have hsecond : scan "member".toList "<member name='B'/>".toList = .ok [⟨['B'], []⟩] := rfl
  have hfree : ∀ {pattern text : Text} (c : Char), c ∈ pattern → c ∉ text →
      ¬ pattern <:+: text := fun c hc hnot h => hnot (h.subset hc)
  constructor
  · refine (scan_commented hfirst hsecond (hfree '-' (by decide) (by decide))).1 ?_ ?_
    · exact fun h => hfree '>' (by decide) (by decide) h.isInfix
    · exact fun h => hfree '-' (by decide) (by decide) h.isInfix
  · refine ((scan_commented hfirst hsecond (hfree '-' (by decide) (by decide))).2 ">".toList
      (by decide) "<member name='C'/>".toList rfl [⟨['C'], []⟩, ⟨['B'], []⟩]).mpr rfl

set_option maxRecDepth 4000 in
/-- **A member in comment marks may be found all the same**, so that comments are not transparent:
a text without `-->` that begins with `>` ends its comment early. -/
theorem commented_member_found :
    ¬ ∀ (memberElement first second text : Text) (members others : List MemberBlock),
      scan memberElement first = .ok members → scan memberElement second = .ok others →
        ¬ "-->".toList <:+: text →
          scan memberElement (first ++ "<!--".toList ++ text ++ "-->".toList ++ second) =
            .ok (members ++ others) := by
  intro htransparent
  have hfound : scan "member".toList ("<!--".toList ++ "><member name='A'/>".toList ++
      "-->".toList) = .ok [⟨['A'], []⟩] := rfl
  have htext : ¬ "-->".toList <:+: "><member name='A'/>".toList := fun h =>
    absurd (h.subset (a := '-') (by decide)) (by decide)
  have hnone := htransparent "member".toList [] [] "><member name='A'/>".toList [] [] rfl rfl htext
  rw [List.append_nil, List.nil_append, hfound] at hnone
  exact absurd hnone (by simp)

end Markup

end SymbolDocs
