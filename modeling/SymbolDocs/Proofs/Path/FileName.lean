import SymbolDocs.Path
set_option autoImplicit false

/-!
# File names

A path with a file name consists of the directory, the file name, and slashes and parts `.` behind
it. The components of the path are those of the directory and the file name, and the file name
consists of a stem and an extension after its last dot.

## Main definitions

* `Path.IsPart` — what can be a part of a path.
* `Path.IsDirectory`, `Path.IsTrailing` — what may stand before and behind a file name.
* `Path.parent` — the components before the last one.
* `Path.Split.stem`, `Path.Split.extension?` — the stem and the extension of a file name.

## Main results

* `Path.components_append_slash` — the components of a path with more parts behind it.
* `Path.components_append` — the components of a directory with a part behind it.
* `Path.split?_eq_some_iff` — how a path is taken apart at its file name.
* `Path.components_of_split?` — the parent of a path is its directory.
* `Path.splitName_append` — the last dot of a file name separates stem and extension.
-/

namespace SymbolDocs

namespace Path

/-! ### Segments and components -/

/-- A path has at least one segment. -/
theorem segments_ne_nil (path : Path) : segments path ≠ [] := by
  cases path with
  | nil => simp [segments]
  | cons c path =>
    rw [segments]
    split
    · simp
    · split <;> simp

/-- What holds no slash is its only segment. -/
theorem segments_of_not_mem {segment : Path} (h : slash ∉ segment) :
    segments segment = [segment] := by
  induction segment with
  | nil => rfl
  | cons c segment ih =>
    obtain ⟨hc, hsegment⟩ := not_or.mp (mt List.mem_cons.mpr h)
    rw [segments, if_neg (Ne.symm hc), ih hsegment]

/-- A slash separates segments. -/
theorem segments_append_slash (path below : Path) :
    segments (path ++ slash :: below) = segments path ++ segments below := by
  induction path with
  | nil => rfl
  | cons c path ih =>
    obtain ⟨first, rest, hsegments⟩ := List.exists_cons_of_ne_nil (segments_ne_nil path)
    rw [List.cons_append, segments, segments, ih, hsegments]
    split <;> rfl

/-- A slash separates parts. -/
theorem parts_append_slash (path below : Path) :
    parts (path ++ slash :: below) = parts path ++ parts below := by
  rw [parts, segments_append_slash, List.filter_append]
  rfl

/-- **More parts behind a path** are more components. -/
theorem components_append_slash {path : Path} (h : path ≠ []) (below : Path) :
    components (path ++ slash :: below) = components path ++ parts below := by
  have habsolute : isAbsolute (path ++ slash :: below) = isAbsolute path := by
    obtain ⟨c, rest, rfl⟩ := List.exists_cons_of_ne_nil h
    rfl
  have hhead : (segments (path ++ slash :: below)).head? = (segments path).head? := by
    obtain ⟨first, rest, hsegments⟩ := List.exists_cons_of_ne_nil (segments_ne_nil path)
    rw [segments_append_slash, hsegments]
    rfl
  rw [components, habsolute, hhead, parts_append_slash, ← List.append_assoc]
  rfl

/-! ### Parts and what stands around them -/

/-- What can be a part of a path: neither empty nor `.`, and without slashes. -/
structure IsPart (name : Path) : Prop where
  /-- A part is not empty. -/
  ne_nil : name ≠ []
  /-- A part is not a single dot. -/
  ne_dot : name ≠ [dot]
  /-- A part holds no slash. -/
  slash_not_mem : slash ∉ name

/-- What may stand before a part: nothing, or a path with a slash at its end. -/
def IsDirectory (directory : Path) : Prop :=
  directory = [] ∨ ∃ front, directory = front ++ [slash]

/-- What means nothing behind a part: slashes, and parts `.` after slashes. -/
inductive IsTrailing : Path → Prop where
  /-- Nothing follows. -/
  | nil : IsTrailing []
  /-- One more slash. -/
  | slash {text : Path} (h : IsTrailing text) : IsTrailing (text ++ [slash])
  /-- One more part `.` after a slash. -/
  | dot {text : Path} (h : IsTrailing text) : IsTrailing (text ++ [slash, dot])

/-- A part is the only part of itself. -/
theorem IsPart.parts_eq {name : Path} (h : IsPart name) : parts name = [name] := by
  rw [parts, segments_of_not_mem h.slash_not_mem]
  simp [h.ne_nil, h.ne_dot]

/-- A part is the only component of itself. -/
theorem IsPart.components_eq {name : Path} (h : IsPart name) : components name = [name] := by
  have hhead : isAbsolute name = false := by
    obtain ⟨c, rest, rfl⟩ := List.exists_cons_of_ne_nil h.ne_nil
    have hc : c ≠ slash := fun hc => h.slash_not_mem (hc ▸ List.mem_cons_self)
    simp [isAbsolute, hc]
  rw [components, hhead, segments_of_not_mem h.slash_not_mem, h.parts_eq]
  simp [h.ne_dot]

/-- **A part behind a directory** is one more component. -/
theorem components_append {directory name : Path} (hdirectory : IsDirectory directory)
    (hname : IsPart name) : components (directory ++ name) = components directory ++ [name] := by
  rcases hdirectory with rfl | ⟨front, rfl⟩
  · exact hname.components_eq
  · rw [List.append_assoc, List.singleton_append]
    by_cases hfront : front = []
    · subst hfront
      have hparts : parts (slash :: name) = [name] :=
        (parts_append_slash [] name).trans hname.parts_eq
      rw [List.nil_append, components, hparts]
      rfl
    · rw [components_append_slash hfront, components_append_slash hfront, hname.parts_eq,
        List.append_assoc]
      rfl

/-- What means nothing behind a path adds no components. -/
theorem IsTrailing.components_append {path trailing : Path} (h : IsTrailing trailing)
    (hpath : path ≠ []) : components (path ++ trailing) = components path := by
  induction h with
  | nil => rw [List.append_nil]
  | @slash text _ ih =>
    rw [← List.append_assoc, components_append_slash (by simp [hpath]), ih]
    exact List.append_nil _
  | @dot text _ ih =>
    rw [← List.append_assoc, components_append_slash (by simp [hpath]), ih]
    exact List.append_nil _

/-! ### Taking a path apart -/

/-- The slashes and parts `.` at the end of a path are dropped. -/
theorem IsTrailing.dropTrailing_append {trailing : Path} (h : IsTrailing trailing) (path : Path) :
    dropTrailing (trailing.reverse ++ path) = dropTrailing path := by
  induction h with
  | nil => rfl
  | slash _ ih =>
    rw [List.reverse_append]
    exact ih
  | dot _ ih =>
    rw [List.reverse_append]
    exact ih

/-- What is dropped at the end of a path means nothing there. -/
theorem exists_trailing : ∀ reversed : Path,
    ∃ trailing, IsTrailing trailing ∧ reversed = trailing.reverse ++ dropTrailing reversed
  | [] => ⟨[], .nil, rfl⟩
  | byte :: path => by
    by_cases hdropped : byte = slash ∨ byte = dot ∧ path.head? = some slash
    · rcases hdropped with rfl | ⟨rfl, hslash⟩
      · obtain ⟨trailing, htrailing, heq⟩ := exists_trailing path
        refine ⟨trailing ++ [slash], htrailing.slash, ?_⟩
        rw [List.reverse_append]
        exact congrArg (slash :: ·) heq
      · -- the dot is dropped together with the slash before it
        obtain ⟨rest, rfl⟩ := List.head?_eq_some_iff.mp hslash
        obtain ⟨trailing, htrailing, heq⟩ := exists_trailing rest
        refine ⟨trailing ++ [slash, dot], htrailing.dot, ?_⟩
        rw [List.reverse_append]
        exact congrArg (fun path => dot :: slash :: path) heq
    · exact ⟨[], .nil, by rw [dropTrailing, if_neg hdropped]; rfl⟩

/-- Nothing is dropped from a path that ends with a part. -/
theorem IsPart.dropTrailing_append {name : Path} (h : IsPart name) (rest : Path) :
    dropTrailing (name.reverse ++ rest) = name.reverse ++ rest := by
  have hslash : slash ∉ name.reverse := by simpa using h.slash_not_mem
  have hdot : name.reverse ≠ [dot] := fun heq => h.ne_dot (by simpa using congrArg List.reverse heq)
  obtain ⟨last, reversed, hreverse⟩ :=
    List.exists_cons_of_ne_nil (mt List.reverse_eq_nil_iff.mp h.ne_nil)
  rw [hreverse] at hslash hdot ⊢
  rw [List.mem_cons, not_or] at hslash
  rw [List.cons_append, dropTrailing, if_neg]
  rintro (rfl | ⟨rfl, hbefore⟩)
  · exact hslash.1 rfl
  · -- before the dot stands another byte of the part, which is no slash
    cases reversed with
    | nil => exact hdot rfl
    | cons byte reversed =>
      obtain rfl : byte = slash := by simpa using hbefore
      exact hslash.2 List.mem_cons_self

/-- What stands before the slashes of a directory, read backwards, is divided at the directory. -/
theorem span_name {directory name : Path} (hdirectory : IsDirectory directory)
    (hname : slash ∉ name) :
    (name.reverse ++ directory.reverse).takeWhile (· ≠ slash) = name.reverse ∧
      (name.reverse ++ directory.reverse).dropWhile (· ≠ slash) = directory.reverse := by
  have hall : ∀ c ∈ name.reverse, (decide (c ≠ slash)) = true := by
    intro c hc
    simpa using fun heq : c = slash => hname (heq ▸ List.mem_reverse.mp hc)
  rw [List.takeWhile_append_of_pos hall, List.dropWhile_append_of_pos hall]
  rcases hdirectory with rfl | ⟨front, rfl⟩ <;> simp

/-- A path without what means nothing at its end is divided at its last slash. -/
theorem exists_span (reversed : Path) :
    ∃ directory name : Path, IsDirectory directory ∧ slash ∉ name ∧
      reversed = name.reverse ++ directory.reverse := by
  refine ⟨(reversed.dropWhile (· ≠ slash)).reverse, (reversed.takeWhile (· ≠ slash)).reverse,
    ?_, ?_, ?_⟩
  · cases hbefore : reversed.dropWhile (· ≠ slash) with
    | nil => exact .inl rfl
    | cons c front =>
      have hc := List.head?_dropWhile_not (p := (· ≠ slash)) reversed
      rw [hbefore] at hc
      obtain rfl : c = slash := by simpa using hc
      exact .inr ⟨front.reverse, List.reverse_cons⟩
  · intro hmem
    simpa using List.all_eq_true.mp List.all_takeWhile slash (List.mem_reverse.mp hmem)
  · simp

/-- A path that is taken apart is put together from the directory, the file name, and what means
nothing behind it. -/
theorem exists_of_split? {path : Path} {split : Split} (h : split? path = some split) :
    ∃ trailing, IsTrailing trailing ∧ path = split.directory ++ split.name ++ trailing ∧
      IsDirectory split.directory ∧ IsPart split.name ∧ split.name ≠ [dot, dot] ∧
      (split.final = true ↔ trailing = []) := by
  obtain ⟨trailing, htrailing, hpath⟩ := exists_trailing path.reverse
  obtain ⟨directory, name, hdirectory, hslash, hsplit⟩ := exists_span (dropTrailing path.reverse)
  obtain ⟨hname, hbefore⟩ := span_name hdirectory hslash
  rw [hsplit] at hpath
  simp only [split?, hsplit, hname, hbefore, List.reverse_reverse] at h
  obtain ⟨hnone, h⟩ := Option.ite_none_left_eq_some.mp h
  obtain rfl := Option.some.inj h
  simp only [Bool.or_eq_true, decide_eq_true_eq, not_or] at hnone
  refine ⟨trailing, htrailing, ?_, hdirectory, ⟨hnone.1.1, hnone.1.2, hslash⟩, hnone.2, ?_⟩
  · simpa using congrArg List.reverse hpath
  · have hlength := congrArg List.length hpath
    simp only [List.length_append, List.length_reverse, decide_eq_true_eq] at hlength ⊢
    rw [← List.length_eq_zero_iff]
    omega

/-- A file name between a directory and what means nothing is the file name of the path. -/
theorem split?_append_trailing {directory name trailing : Path}
    (hdirectory : IsDirectory directory) (hname : IsPart name) (hdots : name ≠ [dot, dot])
    (htrailing : IsTrailing trailing) :
    split? (directory ++ name ++ trailing) = some ⟨directory, name, trailing = []⟩ := by
  obtain ⟨hlast, hbefore⟩ := span_name hdirectory hname.slash_not_mem
  have hdropped : dropTrailing (directory ++ name ++ trailing).reverse =
      name.reverse ++ directory.reverse := by
    rw [List.reverse_append, htrailing.dropTrailing_append, List.reverse_append,
      hname.dropTrailing_append]
  have hfinal : decide ((name.reverse ++ directory.reverse).length =
      (directory ++ name ++ trailing).length) = decide (trailing = []) := by
    rw [decide_eq_decide, ← List.length_eq_zero_iff]
    simp only [List.length_append, List.length_reverse]
    omega
  simp only [split?, hdropped, hlast, hbefore, hfinal, List.reverse_reverse, hname.ne_nil,
    hname.ne_dot, hdots]
  simp

/-- **How a path is taken apart at its file name**: it is the directory, the file name, and what
means nothing behind it. -/
theorem split?_eq_some_iff {path : Path} {split : Split} :
    split? path = some split ↔
      ∃ trailing, IsTrailing trailing ∧ path = split.directory ++ split.name ++ trailing ∧
        IsDirectory split.directory ∧ IsPart split.name ∧ split.name ≠ [dot, dot] ∧
        (split.final = true ↔ trailing = []) := by
  refine ⟨exists_of_split?, ?_⟩
  rintro ⟨trailing, htrailing, rfl, hdirectory, hname, hdots, hfinal⟩
  have hlast : decide (trailing = []) = split.final := by
    rw [Bool.eq_iff_iff, decide_eq_true_eq, hfinal]
  rw [split?_append_trailing hdirectory hname hdots htrailing, hlast]

/-- What stands before a file name is a directory. -/
theorem isDirectory_of_split? {path : Path} {split : Split} (h : split? path = some split) :
    IsDirectory split.directory := by
  obtain ⟨-, -, -, hdirectory, -⟩ := split?_eq_some_iff.mp h
  exact hdirectory

/-- A file name is a part. -/
theorem isPart_of_split? {path : Path} {split : Split} (h : split? path = some split) :
    IsPart split.name := by
  obtain ⟨-, -, -, -, hname, -⟩ := split?_eq_some_iff.mp h
  exact hname

/-- The components of a path before the last one, which are those of the directory it stands in. -/
def parent (path : Path) : List Path :=
  (components path).dropLast

/-- **The parent of a path is its directory**, and the file name is its last component. -/
theorem components_of_split? {path : Path} {split : Split} (h : split? path = some split) :
    components path = components split.directory ++ [split.name] ∧
      parent path = components split.directory := by
  obtain ⟨trailing, htrailing, rfl, hdirectory, hpart, -, -⟩ := split?_eq_some_iff.mp h
  have hne : split.directory ++ split.name ≠ [] := by simp [hpart.ne_nil]
  have hcomponents := (htrailing.components_append hne).trans (components_append hdirectory hpart)
  exact ⟨hcomponents, by rw [parent, hcomponents, List.dropLast_concat]⟩

/-- A file name behind a directory is the file name of the path. -/
theorem split?_append {directory name : Path} (hdirectory : IsDirectory directory)
    (hname : IsPart name) (hdots : name ≠ [dot, dot]) :
    split? (directory ++ name) = some ⟨directory, name, true⟩ := by
  have hsplit := split?_append_trailing hdirectory hname hdots .nil
  rwa [List.append_nil] at hsplit

/-- A path that leads to the parent of a directory has no file name. -/
theorem split?_append_dots {directory : Path} (hdirectory : IsDirectory directory) :
    split? (directory ++ [dot, dot]) = none := by
  have hpart : IsPart [dot, dot] := ⟨by decide, by decide, by decide⟩
  obtain ⟨hname, hbefore⟩ := span_name hdirectory hpart.slash_not_mem
  simp only [split?, List.reverse_append, hpart.dropTrailing_append, hname]
  rfl

/-! ### Stem and extension -/

/-- The stem of the file name. -/
def Split.stem (split : Split) : Path :=
  (splitName split.name).1

/-- The extension of the file name, if it has one. -/
def Split.extension? (split : Split) : Option Path :=
  (splitName split.name).2

/-- **The last dot of a file name separates stem and extension**, where it is not the first
character. -/
theorem splitName_append {stem extension : Path} (hstem : stem ≠ []) (hdot : dot ∉ extension) :
    splitName (stem ++ dot :: extension) = (stem, some extension) := by
  have hall : ∀ c ∈ extension.reverse, (decide (c ≠ dot)) = true := by
    intro c hc
    simpa using fun heq : c = dot => hdot (heq ▸ List.mem_reverse.mp hc)
  have hreverse :
      (stem ++ dot :: extension).reverse = extension.reverse ++ dot :: stem.reverse := by simp
  obtain ⟨c, rest, hstem⟩ := List.exists_cons_of_ne_nil (mt List.reverse_eq_nil_iff.mp hstem)
  simp only [splitName, hreverse, List.takeWhile_append_of_pos hall,
    List.dropWhile_append_of_pos hall, List.takeWhile_cons_of_neg, List.dropWhile_cons_of_neg,
    hstem, ne_eq, not_true_eq_false, decide_false, Bool.false_eq_true, not_false_eq_true,
    List.append_nil, List.reverse_reverse]
  rw [← hstem, List.reverse_reverse]

/-- A file name begins with its stem, which is not empty. -/
theorem splitName_fst {name : Path} (h : name ≠ []) :
    (splitName name).1 ≠ [] ∧ (splitName name).1 <+: name := by
  have hparts := List.takeWhile_append_dropWhile (p := (· ≠ dot)) (l := name.reverse)
  rw [splitName]
  split
  · exact ⟨h, List.prefix_refl name⟩
  · exact ⟨h, List.prefix_refl name⟩
  · next c stem hne hrest =>
    refine ⟨fun hnil => hne (List.reverse_eq_nil_iff.mp hnil), ?_⟩
    rw [hrest] at hparts
    have hname : name = stem.reverse ++ c :: (name.reverse.takeWhile (· ≠ dot)).reverse := by
      simpa using (congrArg List.reverse hparts).symm
    exact ⟨_, hname.symm⟩

/-- A name that has no extension is its own stem. -/
theorem splitName_fst_of_none {name : Path} (h : (splitName name).2 = none) :
    (splitName name).1 = name := by
  rw [splitName] at h ⊢
  split at h <;> simp_all

end Path

end SymbolDocs
