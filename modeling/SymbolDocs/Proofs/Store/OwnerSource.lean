import SymbolDocs.Proofs.Path.FileName
import SymbolDocs.Proofs.Text.Encoding
import SymbolDocs.Store.Load
set_option autoImplicit false

/-!
# The path of the documentation beside a unit

The documentation of a compiled unit is looked for beside it, under the stem of its file name and
with the configured extension. Units of one directory share a documentation file where they share a
stem.

## Main definitions

* `Path.IsExtension` — what can be given to a file name as its extension.
* `Path.Split.LosesName` — a file name that is lost with its extension.
* `Path.Split.renamed` — the last part of a path that has been given an extension.
* `Path.Split.extended` — such a path, taken apart at its file name.

## Main results

* `Path.replaceExtension_eq` — a new extension changes the last part of a path only.
* `Path.components_replaceExtension` — a path with a new extension has the same parent.
* `Path.renamed_eq_iff` — which file names become the same with a new extension.
* `Store.ownerSource_keeps_stem` — the documentation path has the directory and the stem of the
  unit.
* `Store.doubleDotted_loses_stem` — the exception.

## Design

The stem of a file name such as `..dll` is a single dot. Where it ends the path, what is left
without its extension is the part `..`, which leads to the parent of the directory and is no file
name that could be given an extension. With slashes behind it the stem is found.
-/

namespace SymbolDocs

namespace Path

/-- What can be given to a file name as its extension: a text without dots and slashes that is not
empty. -/
structure IsExtension (extension : Text) : Prop where
  /-- An extension is not empty. -/
  ne_nil : extension ≠ []
  /-- It holds no dot. -/
  dot_not_mem : '.' ∉ extension
  /-- It holds no slash. -/
  slash_not_mem : '/' ∉ extension

/-- The file name is lost with its extension: its stem is a single dot, and it ends the path. -/
def Split.LosesName (split : Split) : Prop :=
  split.stem = [dot] ∧ split.final = true

instance (split : Split) : Decidable split.LosesName :=
  inferInstanceAs (Decidable (_ ∧ _))

/-- The last part of a path that has been given an extension. -/
def Split.renamed (extension : Text) (split : Split) : Path :=
  if split.LosesName then [dot, dot] else split.stem ++ dot :: ofText extension

/-- A path that ends with the stem of a file name and another extension. -/
def Split.extended (extension : Text) (split : Split) : Split :=
  { split with name := split.stem ++ dot :: ofText extension, final := true }

variable {extension : Text} {path : Path} {split other : Split}

/-! ### Extensions as bytes -/

/-- The bytes of an extension are not empty. -/
theorem IsExtension.ofText_ne_nil (h : IsExtension extension) : ofText extension ≠ [] :=
  mt Text.Utf8.encode_eq_nil_iff.mp h.ne_nil

/-- No dot is among the bytes of an extension. -/
theorem IsExtension.dot_not_mem_ofText (h : IsExtension extension) : dot ∉ ofText extension :=
  mt (Text.Utf8.mem_encode_iff (c := '.') (by decide)).mp h.dot_not_mem

/-- No slash is among the bytes of an extension. -/
theorem IsExtension.slash_not_mem_ofText (h : IsExtension extension) : slash ∉ ofText extension :=
  mt (Text.Utf8.mem_encode_iff (c := '/') (by decide)).mp h.slash_not_mem

/-- Every path has a form with the extension. -/
theorem IsExtension.withExtension?_eq (h : IsExtension extension) (path : Path) :
    withExtension? extension path = some (replaceExtension (ofText extension) path) :=
  if_neg h.slash_not_mem

/-! ### The path with a new extension -/

/-- **A new extension changes the last part of a path only.** -/
theorem replaceExtension_eq (hextension : IsExtension extension) (h : split? path = some split) :
    replaceExtension (ofText extension) path = split.directory ++ split.renamed extension := by
  have hpart := isPart_of_split? h
  -- a file name that is its own stem is no single dot
  have hending : split.stem = [dot] → (splitName split.name).2.isSome = true := by
    intro hstem
    cases hname : (splitName split.name).2 with
    | some ending => rfl
    | none => exact absurd ((splitName_fst_of_none hname).symm.trans hstem) hpart.ne_dot
  have hlost : (split.stem = [dot] && (splitName split.name).2.isSome && split.final) = true ↔
      split.LosesName := by
    simp only [Split.LosesName, Bool.and_eq_true, decide_eq_true_eq]
    exact ⟨fun h => ⟨h.1.1, h.2⟩, fun h => ⟨⟨h.1, hending h.1⟩, h.2⟩⟩
  have hdotted : dotted (ofText extension) = dot :: ofText extension :=
    if_neg hextension.ofText_ne_nil
  rw [replaceExtension, h, Split.renamed]
  by_cases hname : split.LosesName
  · rw [if_pos hname]
    exact if_pos (hlost.mpr hname)
  · rw [if_neg hname, ← List.append_assoc, ← hdotted]
    exact if_neg (mt hlost.mp hname)

/-- A stem with an extension is a file name, which is taken apart into the two. -/
theorem isPart_stem_append (hextension : IsExtension extension) (h : split? path = some split) :
    IsPart (split.stem ++ dot :: ofText extension) ∧
      split.stem ++ dot :: ofText extension ≠ [dot, dot] ∧
      splitName (split.stem ++ dot :: ofText extension) =
        (split.stem, some (ofText extension)) := by
  have hpart := isPart_of_split? h
  obtain ⟨hne, hbegins⟩ : split.stem ≠ [] ∧ split.stem <+: split.name := splitName_fst hpart.ne_nil
  have hlength : 2 < (split.stem ++ dot :: ofText extension).length := by
    have hstem := List.length_pos_iff.mpr hne
    have hending := List.length_pos_iff.mpr hextension.ofText_ne_nil
    simp only [List.length_append, List.length_cons]
    omega
  have hslash : slash ∉ split.stem ++ dot :: ofText extension := by
    have hstem : slash ∉ split.stem := fun hmem => hpart.slash_not_mem (hbegins.subset hmem)
    have hdot : slash ≠ dot := by decide
    simp [hstem, hdot, hextension.slash_not_mem_ofText]
  have hshort : ∀ short : Path, short.length ≤ 2 →
      split.stem ++ dot :: ofText extension ≠ short := by
    rintro short hle rfl
    omega
  exact ⟨⟨hshort [] (by simp), hshort [dot] (by simp), hslash⟩, hshort [dot, dot] (by simp),
    splitName_append hne hextension.dot_not_mem_ofText⟩

/-- Stem and extension of a file name that has been given an extension. -/
theorem splitName_extended (hextension : IsExtension extension) (h : split? path = some split) :
    (split.extended extension).stem = split.stem ∧
      (split.extended extension).extension? = some (ofText extension) := by
  have hname : splitName (split.extended extension).name =
      (split.stem, some (ofText extension)) := (isPart_stem_append hextension h).2.2
  exact ⟨by rw [Split.stem, hname], by rw [Split.extension?, hname]⟩

/-- **A path with a new extension has the same parent.** -/
theorem components_replaceExtension (hextension : IsExtension extension)
    (h : split? path = some split) :
    components (replaceExtension (ofText extension) path) =
      components split.directory ++ [split.renamed extension] := by
  have hdirectory := isDirectory_of_split? h
  have hpart : IsPart (split.renamed extension) := by
    rw [Split.renamed]
    split
    · exact ⟨by decide, by decide, by decide⟩
    · exact (isPart_stem_append hextension h).1
  rw [replaceExtension_eq hextension h, components_append hdirectory hpart]

/-- A path with a new extension ends with its file name, unless that is lost. -/
theorem split?_replaceExtension (hextension : IsExtension extension) (h : split? path = some split)
    (hkept : ¬ split.LosesName) :
    split? (replaceExtension (ofText extension) path) = some (split.extended extension) := by
  have hdirectory := isDirectory_of_split? h
  obtain ⟨hpart, hdots, -⟩ := isPart_stem_append hextension h
  rw [replaceExtension_eq hextension h, Split.renamed, if_neg hkept,
    split?_append hdirectory hpart hdots]
  rfl

/-- A path whose file name is lost with its extension has none then. -/
theorem split?_replaceExtension_of_losesName (hextension : IsExtension extension)
    (h : split? path = some split) (hlost : split.LosesName) :
    split? (replaceExtension (ofText extension) path) = none := by
  have hdirectory := isDirectory_of_split? h
  rw [replaceExtension_eq hextension h, Split.renamed, if_pos hlost,
    split?_append_dots hdirectory]

/-- **Two file names become the same with a new extension** where they have one stem, unless only
one of them is lost. -/
theorem renamed_eq_iff {otherPath : Path} (hextension : IsExtension extension)
    (h : split? path = some split) (hother : split? otherPath = some other) :
    split.renamed extension = other.renamed extension ↔
      split.stem = other.stem ∧ (split.LosesName ↔ other.LosesName) := by
  obtain ⟨-, hdots, hname⟩ := isPart_stem_append hextension h
  obtain ⟨-, hotherDots, hotherName⟩ := isPart_stem_append hextension hother
  rw [Split.renamed, Split.renamed]
  by_cases hlost : split.LosesName <;> by_cases hotherLost : other.LosesName
  · simp [hlost, hotherLost, hlost.1, hotherLost.1]
  · simp [hlost, hotherLost, Ne.symm hotherDots]
  · simp [hlost, hotherLost, hdots]
  · simp [hlost, hotherLost]

/-- Giving an extension again changes nothing, except where slashes have kept the file name from
being lost. -/
theorem replaceExtension_replaceExtension_iff (hextension : IsExtension extension)
    (h : split? path = some split) :
    replaceExtension (ofText extension) (replaceExtension (ofText extension) path) =
        replaceExtension (ofText extension) path ↔
      (split.stem = [dot] → split.LosesName) := by
  by_cases hlost : split.LosesName
  · have hnone := split?_replaceExtension_of_losesName hextension h hlost
    simp only [hlost, implies_true, iff_true]
    rw [replaceExtension, hnone]
  · have hsplit := split?_replaceExtension hextension h hlost
    have hstem := (splitName_extended hextension h).1
    have hagain : (split.extended extension).LosesName ↔ split.stem = [dot] := by
      rw [Split.LosesName, hstem]
      exact and_iff_left rfl
    have hdirectory : (split.extended extension).directory = split.directory := rfl
    rw [replaceExtension_eq hextension hsplit, replaceExtension_eq hextension h, hdirectory,
      List.append_right_inj, renamed_eq_iff hextension hsplit h, hagain, and_iff_right hstem]
    simp [hlost]

end Path

namespace Store

open SymbolDocs.Path

/-- **The documentation path keeps the directory and the stem of the unit**, and has the configured
extension. Only a file name such as `..dll` at the end of a path is lost with its extension: its
stem is a single dot, and the path then ends with the part `..`. Looking for the documentation of a
documentation path leads to itself, but for those of such file names with slashes behind them. Two
units of one directory share a documentation file exactly where they have one stem, and, if the stem
is a single dot, where both file names are lost or neither is.

**Proof sketch.** The new file name is the stem with the extension behind a dot, which holds no
other dot, so that it is taken apart into the same stem again. -/
theorem ownerSource_keeps_stem (settings : StoreSettings)
    (hextension : IsExtension settings.extension) (owner : Path) (split : Split)
    (h : split? owner = some split) :
    ∃ source, ownerSource? settings owner = some source ∧
      (¬ split.LosesName →
        ∃ named, split? source = some named ∧ named.directory = split.directory ∧
          parent source = parent owner ∧ named.stem = split.stem ∧
          named.extension? = some (ofText settings.extension)) ∧
      (split.LosesName → source = split.directory ++ [dot, dot] ∧ split? source = none) ∧
      (ownerSource? settings source = some source ↔ (split.stem = [dot] → split.LosesName)) ∧
      ∀ other otherSplit, split? other = some otherSplit → parent other = parent owner →
        ∃ otherSource, ownerSource? settings other = some otherSource ∧
          (components source = components otherSource ↔
            split.stem = otherSplit.stem ∧ (split.LosesName ↔ otherSplit.LosesName)) := by
  have hparent := (components_of_split? h).2
  have hsource : ∀ path, ownerSource? settings path =
      some (replaceExtension (ofText settings.extension) path) := hextension.withExtension?_eq
  refine ⟨_, hsource owner, fun hkept => ?_, fun hlost => ?_, ?_, ?_⟩
  · have hsplit := split?_replaceExtension hextension h hkept
    refine ⟨_, hsplit, rfl, ?_, splitName_extended hextension h⟩
    rw [hparent]
    exact (components_of_split? hsplit).2
  · refine ⟨?_, split?_replaceExtension_of_losesName hextension h hlost⟩
    rw [replaceExtension_eq hextension h, Split.renamed, if_pos hlost]
  · rw [hsource, Option.some.injEq]
    exact replaceExtension_replaceExtension_iff hextension h
  · intro other otherSplit hother hsame
    refine ⟨_, hsource other, ?_⟩
    rw [hparent, (components_of_split? hother).2] at hsame
    rw [components_replaceExtension hextension h, components_replaceExtension hextension hother,
      hsame, List.append_right_inj, List.singleton_inj, renamed_eq_iff hextension h hother]

/-- A unit with a leading dot, two extensions and parts of no meaning behind it has the
documentation of its stem, which it shares with the unit that has no second extension. -/
theorem ownerSource_keeps_stem_hiddenUnit :
    IsExtension (StoreSettings.extension {}) ∧
      split? (ofText "lib//.a.b.dll/./".toList) =
        some ⟨ofText "lib//".toList, ofText ".a.b.dll".toList, false⟩ ∧
      ∃ source, source = ofText "lib//.a.b.xml".toList ∧
        ownerSource? {} (ofText "lib//.a.b.dll/./".toList) = some source ∧
        (∃ named, split? source = some named ∧ named.directory = ofText "lib//".toList ∧
          named.stem = ofText ".a.b".toList ∧ named.extension? = some (ofText "xml".toList)) ∧
        ownerSource? {} source = some source ∧
        ∃ otherSource, ownerSource? {} (ofText "lib/.a.b.".toList) = some otherSource ∧
          components source = components otherSource := by
  have hextension : IsExtension (StoreSettings.extension {}) := ⟨by decide, by decide, by decide⟩
  have hsplit : split? (ofText "lib//.a.b.dll/./".toList) =
      some ⟨ofText "lib//".toList, ofText ".a.b.dll".toList, false⟩ := by decide
  obtain ⟨source, hsource, hkept, -, hagain, hshared⟩ :=
    ownerSource_keeps_stem {} hextension _ _ hsplit
  obtain ⟨named, hnamed, hdirectory, -, hstem, hending⟩ := hkept (by decide)
  obtain ⟨otherSource, hother, hsame⟩ :=
    hshared (ofText "lib/.a.b.".toList) _ rfl (by decide)
  have hpath : source = ofText "lib//.a.b.xml".toList :=
    Option.some.inj (hsource.symm.trans (by decide))
  exact ⟨hextension, hsplit, source, hpath, hsource,
    ⟨named, hnamed, hdirectory, hstem.trans (by decide), hending⟩, hagain.mpr (by decide),
    otherSource, hother, hsame.mpr (by decide)⟩

/-- The unit `..dll` has a file name with a stem, its documentation path has none. With a slash
behind it the unit has a documentation path with that stem, which has itself another one. -/
theorem doubleDotted_loses_stem :
    IsExtension (StoreSettings.extension {}) ∧
      (split? (ofText "..dll".toList)).map Split.stem = some [dot] ∧
      ownerSource? {} (ofText "..dll".toList) = some (ofText "..".toList) ∧
      (split? (ofText "..".toList)).map Split.stem = none ∧
      ownerSource? {} (ofText "..dll/".toList) = some (ofText "..xml".toList) ∧
      ownerSource? {} (ofText "..xml".toList) ≠ some (ofText "..xml".toList) :=
  ⟨⟨by decide, by decide, by decide⟩, by decide, by decide, by decide, by decide, by decide⟩

end Store

end SymbolDocs
