import SymbolDocs.Proofs.Store.Written
set_option autoImplicit false

/-!
# Loading independent texts in any order

Texts that are offered under labels of their own, and of which no two different ones name the same
member, may be loaded in any order: each is responded to as if it were offered alone, and the stores
left behind hold the same.

## Main definitions

* `LabelledText`, `Offering` — a text offered under a label, and the moment at which it is.
* `Store.accepts` — whether a text that is offered is taken in.
* `Store.takeInAll` — the store with some texts taken in.
* `NamesApart` — no two different texts have a member of the same name.

## Main results

* `Store.run_offerings` — what a store makes of texts under labels of their own.
* `Log.lastBody?_perm` — the last bodies do not depend on the order of such texts.
* `Store.offerings_commute` — texts may be loaded in any order.

## Design

A text is taken in when its label is new and it can be scanned. As no label occurs twice, the texts
before it in the list do not matter for that: what is taken in is said by the store at the start.
-/

namespace SymbolDocs

/-! ### Texts under labels -/

/-- A text offered under a label. -/
structure LabelledText where
  /-- The label. -/
  label : Text
  /-- The text. -/
  text : Text
  deriving DecidableEq, Repr

namespace LabelledText

/-- The request to load the text. -/
def request (offer : LabelledText) : Request :=
  .loadText offer.label offer.text

/-- The members of the text; none where it cannot be scanned. -/
def members (settings : StoreSettings) (offer : LabelledText) : List Markup.MemberBlock :=
  Log.membersOf settings offer.text

/-- The names of the members of the text. -/
def names (settings : StoreSettings) (offer : LabelledText) : List Text :=
  (offer.members settings).map Markup.MemberBlock.name

end LabelledText

/-- A text offered at a moment, with the files at that moment. -/
abbrev Offering := FileView × LabelledText

/-- The requests of some offerings. -/
def Offering.requests (offerings : List Offering) : List (FileView × Request) :=
  offerings.map fun offering => (offering.1, offering.2.request)

/-- No name occurs in two different texts. -/
def NamesApart (settings : StoreSettings) (offers : List LabelledText) : Prop :=
  ∀ first ∈ offers, ∀ second ∈ offers, first.text ≠ second.text →
    ∀ name ∈ first.names settings, name ∉ second.names settings

instance (settings : StoreSettings) (offers : List LabelledText) :
    Decidable (NamesApart settings offers) :=
  inferInstanceAs (Decidable (∀ first ∈ offers, ∀ second ∈ offers, _))

/-! ### Last bodies in another order -/

namespace Log

/-- The last body among two lists of members is that of the second, or else that of the first. -/
theorem lastBody?_append (name : Text) (first second : List Markup.MemberBlock) :
    lastBody? name (first ++ second) = (lastBody? name second).or (lastBody? name first) := by
  induction first with
  | nil => simp [lastBody?]
  | cons member later ih => simp [lastBody?, ih, Option.or_assoc]

/-- Two texts that are equal or have no name in common give each name one body in either order. -/
theorem lastBody?_swap {settings : StoreSettings} {first second : LabelledText}
    (h : first.text ≠ second.text →
      ∀ name ∈ first.names settings, name ∉ second.names settings) (name : Text) :
    (lastBody? name (second.members settings)).or (lastBody? name (first.members settings)) =
      (lastBody? name (first.members settings)).or (lastBody? name (second.members settings)) := by
  by_cases htext : first.text = second.text
  · rw [LabelledText.members, LabelledText.members, htext]
  · by_cases hfirst : name ∈ first.names settings
    · have hsecond : lastBody? name (second.members settings) = none := by
        rw [← Option.not_isSome_iff_eq_none, isSome_lastBody?]
        exact h htext name hfirst
      simp [hsecond]
    · have hnone : lastBody? name (first.members settings) = none := by
        rw [← Option.not_isSome_iff_eq_none, isSome_lastBody?]
        exact hfirst
      simp [hnone]

/-- **The last bodies do not depend on the order of texts** without a common name.

**Proof sketch.** By induction on the permutation. Two neighbours change places without an effect
since a name has a body in one of them at most, or the same one in both. -/
theorem lastBody?_perm {settings : StoreSettings} {offers others : List LabelledText}
    (hperm : offers.Perm others) (hapart : NamesApart settings offers) (name : Text) :
    lastBody? name (offers.flatMap (LabelledText.members settings)) =
      lastBody? name (others.flatMap (LabelledText.members settings)) := by
  induction hperm with
  | nil => rfl
  | cons offer _ ih =>
    have hrest := ih fun first hfirst second hsecond =>
      hapart first (List.mem_cons_of_mem _ hfirst) second (List.mem_cons_of_mem _ hsecond)
    simp only [List.flatMap_cons, lastBody?_append, hrest]
  | swap first second rest =>
    have hswap := lastBody?_swap (hapart second (by simp) first (by simp)) name
    simp only [List.flatMap_cons, lastBody?_append, Option.or_assoc, hswap]
  | trans hfirst _ ih₁ ih₂ =>
    rw [ih₁ hapart]
    apply ih₂
    intro first hmem second hsecond
    exact hapart first (hfirst.mem_iff.mpr hmem) second (hfirst.mem_iff.mpr hsecond)

end Log

namespace Store

/-! ### What a store makes of texts -/

/-- Whether a text that is offered is taken in: its label is new, and it can be scanned. -/
def accepts (store : Store) (offer : LabelledText) : Bool :=
  !store.sources.contains offer.label && Log.isScannable store.settings offer.text

/-- The store with some texts taken in, in order. -/
def takeInAll (store : Store) : List LabelledText → Store
  | [] => store
  | offer :: later => (store.takeIn offer.label (offer.members store.settings)).takeInAll later

/-- A text that is offered is taken in where it is accepted, and otherwise changes nothing. -/
theorem loadText_eq (store : Store) (offer : LabelledText) :
    (store.loadText offer.label offer.text).2 =
      if store.accepts offer then store.takeIn offer.label (offer.members store.settings)
      else store := by
  rw [loadText, accepts, LabelledText.members, Log.membersOf, Log.isScannable, ingest]
  by_cases hold : offer.label ∈ store.sources
  · simp [hold]
  · cases hscan : Markup.scan store.settings.memberElement offer.text <;>
      simp [hold, Except.isOk, Except.toBool]

/-- What is said to a text, and whether it is accepted, is told by the settings and by whether the
label is known. -/
theorem loadText_congr {store other : Store} {offer : LabelledText}
    (hsettings : other.settings = store.settings)
    (hlabel : offer.label ∈ other.sources ↔ offer.label ∈ store.sources) :
    (other.loadText offer.label offer.text).1 = (store.loadText offer.label offer.text).1 ∧
      other.accepts offer = store.accepts offer := by
  have hcontains : other.sources.contains offer.label = store.sources.contains offer.label := by
    simp [hlabel]
  constructor
  · rw [loadText, loadText, hcontains, ingest, ingest, hsettings]
    split
    · rfl
    · cases Markup.scan store.settings.memberElement offer.text <;> rfl
  · rw [accepts, accepts, hcontains, hsettings]

/-- Members that are inserted leave everything but the bodies. -/
theorem takeIn_eq (store : Store) (key : Text) (members : List Markup.MemberBlock) :
    (store.takeIn key members).settings = store.settings ∧
      (store.takeIn key members).sources = key :: store.sources ∧
      (store.takeIn key members).attempted = store.attempted ∧
      (store.takeIn key members).parses = store.parses + 1 := by
  rw [takeIn, Log.insertAll_eq]
  simp

/-- **What a store makes of texts under labels of their own**: it says to each what it would say at
the start, and takes in those that it would accept at the start.

**Proof sketch.** By induction on the offerings. The first text adds its own label at most, which is
none of the other labels. -/
theorem run_offerings (store : Store) {offerings : List Offering}
    (hlabels : (offerings.map fun offering => offering.2.label).Nodup) :
    store.run (Offering.requests offerings) =
      (offerings.map fun offering =>
          .loaded (store.loadText offering.2.label offering.2.text).1,
        store.takeInAll ((offerings.map Prod.snd).filter store.accepts)) := by
  induction offerings generalizing store with
  | nil => rfl
  | cons offering later ih =>
    obtain ⟨files, offer⟩ := offering
    obtain ⟨hfirst, hlater⟩ := List.nodup_cons.mp hlabels
    set next := (store.loadText offer.label offer.text).2 with hnext
    have hcongr : ∀ other ∈ later,
        (next.loadText other.2.label other.2.text).1 =
            (store.loadText other.2.label other.2.text).1 ∧
          next.accepts other.2 = store.accepts other.2 := by
      intro other hother
      have hne : other.2.label ≠ offer.label := by
        intro heq
        exact hfirst (List.mem_map.mpr ⟨other, hother, heq⟩)
      obtain ⟨hsettings, hsources, -, -⟩ :=
        takeIn_eq store offer.label (offer.members store.settings)
      apply loadText_congr <;> rw [hnext, loadText_eq] <;> split <;> simp [hsettings, hsources, hne]
    have hrun : store.run (Offering.requests ((files, offer) :: later)) =
        (.loaded (store.loadText offer.label offer.text).1 ::
          (next.run (Offering.requests later)).1, (next.run (Offering.requests later)).2) := rfl
    have hresponses : (later.map fun other =>
        Response.loaded (next.loadText other.2.label other.2.text).1) =
        later.map fun other => .loaded (store.loadText other.2.label other.2.text).1 :=
      List.map_congr_left fun other hother => by rw [(hcongr other hother).1]
    have haccepted : (later.map Prod.snd).filter next.accepts =
        (later.map Prod.snd).filter store.accepts := by
      apply List.filter_congr
      intro other hother
      obtain ⟨offering, hoffering, rfl⟩ := List.mem_map.mp hother
      exact (hcongr offering hoffering).2
    rw [hrun, ih next hlater, hresponses, haccepted, List.map_cons, List.map_cons,
      List.filter_cons]
    simp only [hnext, loadText_eq]
    split <;> rfl

/-- **What a store with some texts taken in holds.** -/
theorem takeInAll_holds (store : Store) (offers : List LabelledText) :
    (store.takeInAll offers).settings = store.settings ∧
      (store.takeInAll offers).sources =
        (offers.map LabelledText.label).reverse ++ store.sources ∧
      (store.takeInAll offers).attempted = store.attempted ∧
      (store.takeInAll offers).parses = store.parses + offers.length ∧
      ∀ name, (store.takeInAll offers).lookup name =
        (Log.lastBody? name (offers.flatMap (LabelledText.members store.settings))).or
          (store.lookup name) := by
  induction offers generalizing store with
  | nil => simp [takeInAll, Log.lastBody?]
  | cons offer later ih =>
    obtain ⟨hsettings, hsources, hattempted, hparses⟩ :=
      takeIn_eq store offer.label (offer.members store.settings)
    have hlater := ih (store.takeIn offer.label (offer.members store.settings))
    rw [hsettings, hsources, hattempted, hparses] at hlater
    obtain ⟨hsettings', hsources', hattempted', hparses', hlookup⟩ := hlater
    refine ⟨hsettings', ?_, hattempted', ?_, fun name => ?_⟩
    · rw [takeInAll, hsources', List.map_cons, List.reverse_cons, List.append_assoc,
        List.singleton_append]
    · rw [takeInAll, hparses', List.length_cons]
      omega
    · rw [List.flatMap_cons, Log.lastBody?_append, Option.or_assoc, ← lookup_takeIn]
      exact hlookup name

/-! ### Any order -/

/-- **Independent texts may be loaded in any order.** Let texts be offered under labels of which no
two are the same, and let no name occur in two different texts that can be scanned. In whatever
order they are loaded, each is responded to as if it were loaded alone, and the stores left behind
have taken in the same sources, as many of them, and have the same body for each name.

**Proof sketch.** What is taken in is said by the store at the start, so that in another order it is
a permutation of the same texts. Among these a name has its last body whatever the order. -/
theorem offerings_commute (store : Store) (offerings others : List Offering)
    (hperm : (offerings.map Prod.snd).Perm (others.map Prod.snd))
    (hlabels : (offerings.map fun offering => offering.2.label).Nodup)
    (hapart : NamesApart store.settings (offerings.map Prod.snd)) :
    let (responses, left) := store.run (Offering.requests offerings)
    let (otherResponses, otherLeft) := store.run (Offering.requests others)
    (responses = offerings.map fun offering =>
        .loaded (store.loadText offering.2.label offering.2.text).1) ∧
      (otherResponses = others.map fun offering =>
        .loaded (store.loadText offering.2.label offering.2.text).1) ∧
      (∀ key, key ∈ left.sources ↔ key ∈ otherLeft.sources) ∧
      left.attempted = otherLeft.attempted ∧
      left.parses = otherLeft.parses ∧
      ∀ name, left.lookup name = otherLeft.lookup name := by
  have hlabels' : (others.map fun offering => offering.2.label).Nodup := by
    have hsame := hperm.map LabelledText.label
    rw [List.map_map, List.map_map] at hsame
    exact hsame.nodup_iff.mp hlabels
  rw [run_offerings store hlabels, run_offerings store hlabels']
  have haccepted := hperm.filter store.accepts
  obtain ⟨-, hsources, hattempted, hparses, hlookup⟩ :=
    takeInAll_holds store ((offerings.map Prod.snd).filter store.accepts)
  obtain ⟨-, hsources', hattempted', hparses', hlookup'⟩ :=
    takeInAll_holds store ((others.map Prod.snd).filter store.accepts)
  refine ⟨rfl, rfl, fun key => ?_, ?_, ?_, fun name => ?_⟩
  · have hkeys := (haccepted.map LabelledText.label).mem_iff (a := key)
    rw [hsources, hsources', List.mem_append, List.mem_append, List.mem_reverse, List.mem_reverse,
      hkeys]
  · rw [hattempted, hattempted']
  · rw [hparses, hparses', haccepted.length_eq]
  · have hbody : ∀ first ∈ (offerings.map Prod.snd).filter store.accepts,
        first ∈ offerings.map Prod.snd := fun first hfirst => (List.mem_filter.mp hfirst).1
    rw [hlookup, hlookup', Log.lastBody?_perm haccepted fun first hfirst second hsecond =>
      hapart first (hbody first hfirst) second (hbody second hsecond)]

/-- A text that names one member twice, a text that cannot be scanned, another one under a label
that a store may know, and a text with another member, all offered while there are no files. -/
def mixedOfferings : List Offering :=
  let noFiles : FileView := ⟨[Path.slash], fun _ => false, fun _ => .error .notFound⟩
  [(noFiles, ⟨"first".toList, "<member name='A'>1</member><member name='A'>2</member>".toList⟩),
    (noFiles, ⟨"broken".toList, "</b>".toList⟩),
    (noFiles, ⟨"old".toList, "<".toList⟩),
    (noFiles, ⟨"second".toList, "<member name='B'/>".toList⟩)]

set_option maxRecDepth 8000 in
/-- A store that has loaded a text under the label `old` makes the same of the texts in the order
given and in reverse: it takes in two of them, and replaces the body that it had. -/
theorem offerings_commute_mixedOfferings :
    let store := ((empty {}).loadText "old".toList "<member name='A'>0</member>".toList).2
    let left := (store.run (Offering.requests mixedOfferings)).2
    let otherLeft := (store.run (Offering.requests mixedOfferings.reverse)).2
    left.lookup ['A'] = some ['2'] ∧ otherLeft.lookup ['A'] = some ['2'] ∧
      left.parses = 3 ∧ otherLeft.parses = 3 := by
  intro store left otherLeft
  obtain ⟨-, -, -, -, hparses, hlookup⟩ :=
    offerings_commute store mixedOfferings mixedOfferings.reverse
      (List.Perm.map _ (List.reverse_perm _).symm) (by decide) (by decide)
  have hbody : left.lookup ['A'] = some ['2'] := rfl
  have hthree : left.parses = 3 := rfl
  exact ⟨hbody, (hlookup ['A']).symm.trans hbody, hthree, hparses.symm.trans hthree⟩

end Store

end SymbolDocs
