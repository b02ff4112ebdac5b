import SymbolDocs.Proofs.Identifier.WellFormed
set_option autoImplicit false

/-!
# The written form of symbols

The signature of a symbol is written as the opening of its kind and what stands behind it: the
declaring type, the name, the arity, the parameters and the result. Each of these ends where the
next begins, so that a signature can be read back from its text.

## Main definitions

* `SymbolSignature.text` — the written form of a signature.
* `SymbolSignature.Legible` — the signatures whose written form can be read back.

## Main results

* `SymbolSignature.callableText_inj` — a method or constructor is determined by its text.
* `SymbolSignature.text_injective` — legible signatures are told apart by their texts.
-/

namespace SymbolDocs

open Naming TypeSignature

/-! ### The written form of symbols -/

namespace SymbolSignature

/-- The written form of a parameter list; nothing for no parameter. -/
def listText : List TypeSignature → Text
  | [] => []
  | first :: rest => '(' :: commaSeparated (texts (first :: rest)) ++ [')']

/-- The written form of the number of generic parameters of a method; nothing for none. -/
def arityText : Nat → Text
  | 0 => []
  | n => '\x60' :: '\x60' :: Text.ofNat n

/-- The written form of the result of a conversion operator; nothing for any other method. -/
def resultText : Option TypeSignature → Text
  | none => []
  | some signature => '~' :: signature.text

/-- The written form of a method or constructor behind its opening. -/
def callableText (declaring : TypeSignature) (name : Text) (arity : Nat)
    (parameters : List TypeSignature) (result : Option TypeSignature) : Text :=
  declaring.text ++ '.' :: (name ++ arityText arity) ++ (listText parameters ++ resultText result)

/-- The kind of a symbol with a signature. -/
def kind : SymbolSignature → SymbolKind
  | .type _ => .type
  | .method _ _ _ _ _ => .method
  | .constructor _ _ => .method
  | .plain kind _ _ => kind

/-- The written form of a signature behind the opening of its kind. -/
def body : SymbolSignature → Text
  | .type signature => signature.text
  | .method declaring name arity parameters result =>
    callableText declaring name arity parameters result
  | .constructor declaring parameters => callableText declaring Constructor.name 0 parameters none
  | .plain _ declaring name => declaring.text ++ '.' :: name

/-- The written form of a signature. -/
def text (signature : SymbolSignature) : Text :=
  signature.kind.opening ++ signature.body

/-- A signature whose written form can be read back. -/
def Legible : SymbolSignature → Prop
  | .type signature => signature.Legible
  | .method declaring name _ parameters result =>
    declaring.Legible ∧ IsPlain name ∧ (∀ p ∈ parameters, p.Legible) ∧ ∀ r ∈ result, r.Legible
  | .constructor declaring parameters => declaring.Legible ∧ ∀ p ∈ parameters, p.Legible
  | .plain kind declaring name =>
    kind ∈ [SymbolKind.property, .field, .event] ∧ declaring.Legible ∧ IsPlain name

/-! ### Reading symbols back -/

/-- The opening tells the kind of an identifier. -/
theorem opening_append_inj {k₁ k₂ : SymbolKind} {r s : Text}
    (h : k₁.opening ++ r = k₂.opening ++ s) : k₁ = k₂ ∧ r = s := by
  cases k₁ <;> cases k₂ <;> simp_all [SymbolKind.opening]

/-- The result of a conversion operator is determined by its text. -/
theorem resultText_injective {r₁ r₂ : Option TypeSignature} (h₁ : ∀ r ∈ r₁, r.Legible)
    (h₂ : ∀ r ∈ r₂, r.Legible) (h : resultText r₁ = resultText r₂) : r₁ = r₂ := by
  cases r₁ with
  | none =>
    cases r₂ with
    | none => rfl
    | some s₂ => simp [resultText] at h
  | some s₁ =>
    cases r₂ with
    | none => simp [resultText] at h
    | some s₂ =>
      rw [TypeSignature.text_injective (h₁ s₁ rfl) (h₂ s₂ rfl) (List.cons.inj h).2]

/-- Neither a parameter list nor a result can be taken for the other. -/
theorem resultText_ne (result : Option TypeSignature) (rest : Text) :
    resultText result ≠ '(' :: rest := by
  cases result <;> simp [resultText]

/-- The parameters and the result are determined by their text. -/
theorem listText_append_inj {l₁ l₂ : List TypeSignature} {r₁ r₂ : Option TypeSignature}
    (hl₁ : ∀ p ∈ l₁, p.Legible) (hl₂ : ∀ p ∈ l₂, p.Legible) (hr₁ : ∀ r ∈ r₁, r.Legible)
    (hr₂ : ∀ r ∈ r₂, r.Legible)
    (h : listText l₁ ++ resultText r₁ = listText l₂ ++ resultText r₂) : l₁ = l₂ ∧ r₁ = r₂ := by
  cases l₁ with
  | nil =>
    cases l₂ with
    | nil => exact ⟨rfl, resultText_injective hr₁ hr₂ h⟩
    | cons a₂ l₂ => exact absurd h (resultText_ne r₁ _)
  | cons a₁ l₁ =>
    cases l₂ with
    | nil => exact absurd h.symm (resultText_ne r₂ _)
    | cons a₂ l₂ =>
      have hlists : commaSeparated (texts (a₁ :: l₁)) ++ ')' :: resultText r₁ =
          commaSeparated (texts (a₂ :: l₂)) ++ ')' :: resultText r₂ := by
        simpa [listText] using h
      obtain ⟨hl, hr⟩ := commaSeparated_append_inj (by simp [Stops]) (by decide)
        (fun a ha s hs => separates (hl₁ a ha) hs) hl₂ hlists
      exact ⟨hl, resultText_injective hr₁ hr₂ hr⟩

/-- The number of generic parameters is determined by its text. -/
theorem arityText_injective {m n : Nat} (h : arityText m = arityText n) : m = n := by
  cases m <;> cases n <;> simp [arityText] at h
  · rfl
  · exact Text.ofNat_injective h

/-- A name that can be told from what stands around it in an identifier. -/
def IsCallableName (name : Text) : Prop :=
  ∀ c ∈ name, c ∉ ['.', '\x60', '(', ')', '~']

/-- A plain name can be told from what stands around it in an identifier. -/
theorem IsCallableName.of_isPlain {name : Text} (h : IsPlain name) : IsCallableName name := by
  intro c hc hmem
  refine h.not_reserved c hc ?_
  exact (show ∀ d ∈ ['.', '\x60', '(', ')', '~'], d ∈ reserved by simp [reserved]) c hmem

/-- The number of generic parameters holds none of the characters around it but backticks. -/
theorem not_mem_of_mem_arityText {n : Nat} : ∀ c ∈ arityText n, c ∉ ['.', '(', ')', '~'] := by
  intro c hc
  cases n with
  | zero => exact absurd hc List.not_mem_nil
  | succ n =>
    simp only [arityText, List.mem_cons] at hc
    rcases hc with rfl | rfl | hc
    · decide
    · decide
    · have hdigit := Text.isDigit_of_mem_ofNat hc
      simp only [List.mem_cons, List.not_mem_nil, or_false]
      rintro (rfl | rfl | rfl | rfl) <;> exact absurd hdigit (by decide)

/-- What stands before the parameters of a method or constructor holds no parenthesis and no
tilde. -/
theorem not_mem_of_mem_callableHead {declaring : TypeSignature} {name : Text} (arity : Nat)
    (hdeclaring : declaring.Legible) (hname : IsCallableName name) :
    ∀ c ∈ declaring.text ++ '.' :: (name ++ arityText arity), c ∉ ['(', ')', '~'] := by
  intro c hc
  rw [List.mem_append, List.mem_cons, List.mem_append] at hc
  rcases hc with hc | rfl | hc | hc
  · exact hdeclaring.not_mem_of_mem_text c hc
  · decide
  · exact fun hmem => hname c hc (List.mem_cons_of_mem _ (List.mem_cons_of_mem _ hmem))
  · exact fun hmem => not_mem_of_mem_arityText c hc (List.mem_cons_of_mem _ hmem)

/-- The parameters and the result begin with a parenthesis or a tilde, unless there are none. -/
theorem mem_head_listText (parameters : List TypeSignature) (result : Option TypeSignature) :
    ∀ c ∈ (listText parameters ++ resultText result).head?, c ∈ ['(', ')', '~'] := by
  intro c hc
  cases parameters with
  | nil =>
    cases result with
    | none => simp [listText, resultText] at hc
    | some signature =>
      obtain rfl : '~' = c := by simpa [listText, resultText] using hc
      decide
  | cons first rest =>
    obtain rfl : '(' = c := by simpa [listText] using hc
    decide

/-- No dot stands in a name and the number of generic parameters behind it. -/
theorem dot_not_mem_append_arityText {name : Text} (arity : Nat) (hname : IsCallableName name) :
    '.' ∉ name ++ arityText arity := by
  intro hmem
  rcases List.mem_append.mp hmem with hmem | hmem
  · exact hname '.' hmem (by decide)
  · exact not_mem_of_mem_arityText '.' hmem (by decide)

/-- A name and the number of generic parameters behind it are determined by their text. -/
theorem append_arityText_inj {n₁ n₂ : Text} {a₁ a₂ : Nat} (hn₁ : IsCallableName n₁)
    (hn₂ : IsCallableName n₂) (h : n₁ ++ arityText a₁ = n₂ ++ arityText a₂) :
    n₁ = n₂ ∧ a₁ = a₂ := by
  have hname : ∀ n : Text, IsCallableName n → ∀ c ∈ n, c ≠ '\x60' := by
    intro n hn c hc heq
    exact hn c hc (by simp [heq])
  have hhead : ∀ a : Nat, ∀ c ∈ (arityText a).head?, ¬ c ≠ '\x60' := by
    intro a c hc
    cases a with
    | zero => simp [arityText] at hc
    | succ a => simpa [arityText, eq_comm] using hc
  obtain ⟨hn, ha⟩ := Text.append_inj_of_class (hname n₁ hn₁) (hname n₂ hn₂) (hhead a₁) (hhead a₂) h
  exact ⟨hn, arityText_injective ha⟩

/-- A method or constructor is determined by its text.

**Proof sketch.** The declaring type, the name and the arity hold no parenthesis and no tilde, so
they end where the parameters or the result begin. The last dot divides the declaring type from the
name, and the first backtick behind it the name from the arity. -/
theorem callableText_inj {d₁ d₂ : TypeSignature} {n₁ n₂ : Text} {a₁ a₂ : Nat}
    {l₁ l₂ : List TypeSignature} {r₁ r₂ : Option TypeSignature} (hd₁ : d₁.Legible)
    (hd₂ : d₂.Legible) (hn₁ : IsCallableName n₁) (hn₂ : IsCallableName n₂)
    (hl₁ : ∀ p ∈ l₁, p.Legible) (hl₂ : ∀ p ∈ l₂, p.Legible) (hr₁ : ∀ r ∈ r₁, r.Legible)
    (hr₂ : ∀ r ∈ r₂, r.Legible) (h : callableText d₁ n₁ a₁ l₁ r₁ = callableText d₂ n₂ a₂ l₂ r₂) :
    d₁ = d₂ ∧ n₁ = n₂ ∧ a₁ = a₂ ∧ l₁ = l₂ ∧ r₁ = r₂ := by
  obtain ⟨hheads, htails⟩ := Text.append_inj_of_class
    (not_mem_of_mem_callableHead a₁ hd₁ hn₁) (not_mem_of_mem_callableHead a₂ hd₂ hn₂)
    (fun c hc hnot => hnot (mem_head_listText l₁ r₁ c hc))
    (fun c hc hnot => hnot (mem_head_listText l₂ r₂ c hc)) h
  obtain ⟨hdeclaring, hnames⟩ := Text.append_inj_of_last (dot_not_mem_append_arityText a₁ hn₁)
    (dot_not_mem_append_arityText a₂ hn₂) hheads
  obtain ⟨hn, ha⟩ := append_arityText_inj hn₁ hn₂ hnames
  obtain ⟨hl, hr⟩ := listText_append_inj hl₁ hl₂ hr₁ hr₂ htails
  exact ⟨TypeSignature.text_injective hd₁ hd₂ hdeclaring, hn, ha, hl, hr⟩

/-- **Legible signatures of symbols are told apart by their texts.** -/
theorem text_injective {s₁ s₂ : SymbolSignature} (h₁ : s₁.Legible) (h₂ : s₂.Legible)
    (h : s₁.text = s₂.text) : s₁ = s₂ := by
  obtain ⟨hkind, hbody⟩ := opening_append_inj h
  have hconstructor : IsCallableName Constructor.name :=
    show ∀ c ∈ Constructor.name, c ∉ ['.', '\x60', '(', ')', '~'] by simp [Constructor.name]
  have hnone : ∀ r ∈ (none : Option TypeSignature), r.Legible := fun r hr => by simp at hr
  -- a constructor has a name that no method has
  have hplain : ∀ n : Text, IsPlain n → n ≠ Constructor.name := fun n hn heq =>
    absurd (heq ▸ hn) (by decide)
  cases s₁ with
  | type t₁ =>
    cases s₂ with
    | type t₂ => rw [TypeSignature.text_injective h₁ h₂ hbody]
    | plain k₂ d₂ n₂ => simp [kind] at hkind; simp [Legible, ← hkind] at h₂
    | _ => simp [kind] at hkind
  | method d₁ n₁ a₁ l₁ r₁ =>
    obtain ⟨hd₁, hn₁, hl₁, hr₁⟩ := h₁
    cases s₂ with
    | method d₂ n₂ a₂ l₂ r₂ =>
      obtain ⟨hd₂, hn₂, hl₂, hr₂⟩ := h₂
      obtain ⟨rfl, rfl, rfl, rfl, rfl⟩ := callableText_inj hd₁ hd₂ (.of_isPlain hn₁)
        (.of_isPlain hn₂) hl₁ hl₂ hr₁ hr₂ hbody
      rfl
    | constructor d₂ l₂ =>
      obtain ⟨-, hname, -⟩ := callableText_inj hd₁ h₂.1 (.of_isPlain hn₁) hconstructor hl₁ h₂.2
        hr₁ hnone hbody
      exact absurd hname (hplain n₁ hn₁)
    | plain k₂ d₂ n₂ => simp [kind] at hkind; simp [Legible, ← hkind] at h₂
    | type t₂ => simp [kind] at hkind
  | constructor d₁ l₁ =>
    cases s₂ with
    | method d₂ n₂ a₂ l₂ r₂ =>
      obtain ⟨hd₂, hn₂, hl₂, hr₂⟩ := h₂
      obtain ⟨-, hname, -⟩ := callableText_inj h₁.1 hd₂ hconstructor (.of_isPlain hn₂) h₁.2 hl₂
        hnone hr₂ hbody
      exact absurd hname.symm (hplain n₂ hn₂)
    | constructor d₂ l₂ =>
      obtain ⟨rfl, -, -, rfl, -⟩ := callableText_inj h₁.1 h₂.1 hconstructor hconstructor h₁.2 h₂.2
        hnone hnone hbody
      rfl
    | plain k₂ d₂ n₂ => simp [kind] at hkind; simp [Legible, ← hkind] at h₂
    | type t₂ => simp [kind] at hkind
  | plain k₁ d₁ n₁ =>
    cases s₂ with
    | plain k₂ d₂ n₂ =>
      obtain ⟨-, hd₁, hn₁⟩ := h₁
      obtain ⟨-, hd₂, hn₂⟩ := h₂
      obtain rfl : k₁ = k₂ := hkind
      obtain ⟨hdeclaring, rfl⟩ := Text.append_inj_of_last (hn₁.not_mem (by decide))
        (hn₂.not_mem (by decide)) hbody
      rw [TypeSignature.text_injective hd₁ hd₂ hdeclaring]
    | _ => simp [kind] at hkind; simp [Legible, hkind] at h₁

end SymbolSignature

end SymbolDocs
