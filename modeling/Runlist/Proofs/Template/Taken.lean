import Runlist.Proofs.Template.Sights

/-!
# What rules take and write

A rule takes a part at the start of a text and writes a tag in its place. Here is what such a part
looks like.

* `Requoted`: a reference with a quoted text is written anew, and the quoted text stays.
* `quotedFallback_requoted`, `comparedOutput_requoted`: fallbacks and comparisons do so.
* `plainFallback_taken`, `loopProperty_taken`, `loopItem_taken`: what the other rules for references
  take.
-/

namespace Runlist.Template

open Text (isBlank)

variable {s text rest : List Char}

/-! ## Parts -/

theorem trimLeft_split (s : List Char) : ∃ b, (∀ c ∈ b, isBlank c) ∧ s = b ++ Text.trimLeft s :=
  ⟨s.takeWhile isBlank, fun _ hc => List.mem_takeWhile_imp hc, List.takeWhile_append_dropWhile.symm⟩

theorem trimRight_split (s : List Char) :
    ∃ b, (∀ c ∈ b, isBlank c) ∧ s = Text.trimRight s ++ b := by
  refine ⟨(s.reverse.takeWhile isBlank).reverse, fun c hc =>
    List.mem_takeWhile_imp (List.mem_reverse.1 hc), ?_⟩
  rw [Text.trimRight, Text.dropRightWhile, ← List.reverse_append, List.takeWhile_append_dropWhile,
    List.reverse_reverse]

theorem afterBlanks?_eq_some {w : List Char} (h : afterBlanks? w s = some rest) :
    ∃ b, (∀ c ∈ b, isBlank c) ∧ s = b ++ (w ++ rest) := by
  obtain ⟨b, hb, hs⟩ := trimLeft_split s
  exact ⟨b, hb, by rw [← Text.afterPrefix?_eq_some.1 h, ← hs]⟩

theorem path?_eq_some {path : List Char} (h : path? s = some (path, rest)) :
    s = path ++ rest ∧ path ≠ [] ∧ ∀ c ∈ path, isPathChar c := by
  unfold path? at h
  split at h
  · cases h
  · rename_i hne
    cases h
    exact ⟨List.takeWhile_append_dropWhile.symm, hne, fun c hc => List.mem_takeWhile_imp hc⟩

theorem word?_eq_some {word : List Char} (h : word? s = some (word, rest)) :
    s = word ++ rest ∧ word ≠ [] ∧ ∀ c ∈ word, Text.isWord c := by
  unfold word? at h
  split at h
  · cases h
  · rename_i hne
    cases h
    exact ⟨List.takeWhile_append_dropWhile.symm, hne, fun c hc => List.mem_takeWhile_imp hc⟩

theorem quotedText?_eq_some (h : quotedText? s = some (text, rest)) :
    ∃ quote, (quote = '\'' ∨ quote = '"') ∧ s = quote :: (text ++ quote :: rest) ∧
      quote ∉ text := by
  unfold quotedText? at h
  split at h
  · cases h
  · rename_i quote s
    split at h
    · rename_i hquote
      split at h
      · rename_i c tail hdrop
        cases h
        have hc : c = quote := by simpa using Text.dropWhile_head hdrop
        subst hc
        refine ⟨c, by simpa using hquote, by rw [← hdrop, List.takeWhile_append_dropWhile],
          fun hmem => ?_⟩
        have hc := List.mem_takeWhile_imp hmem
        rw [bne_self_eq_false] at hc
        cases hc
      · cases h
    · cases h

/-! ## Fallbacks and comparisons -/

theorem fallbackStart?_eq_some {path : List Char} (h : fallbackStart? s = some (path, rest)) :
    ∃ before, s = openBraces ++ (before ++ rest) ∧ before ≠ [] ∧ Plain before ∧
      path <:+: before := by
  simp only [fallbackStart?, Option.bind_eq_bind, Option.bind_eq_some_iff] at h
  obtain ⟨s₁, h₁, ⟨path', s₂⟩, h₂, s₃, h₃, s₄, h₄, h₅⟩ := h
  obtain ⟨rfl, rfl⟩ := Prod.mk.inj (Option.some.inj h₅)
  dsimp only at h₃ ⊢
  obtain ⟨b, hb, hs₁⟩ := trimLeft_split s₁
  obtain ⟨hs₂, hne, hpath⟩ := path?_eq_some h₂
  obtain ⟨b₃, hb₃, hs₃⟩ := afterBlanks?_eq_some h₃
  obtain ⟨b₄, hb₄, hs₄⟩ := afterBlanks?_eq_some h₄
  obtain ⟨b₅, hb₅, hs₅⟩ := trimLeft_split s₄
  refine ⟨b ++ (path' ++ (b₃ ++ (['|'] ++ (b₄ ++ ("default(".toList ++ b₅))))), ?_, ?_, ?_, ?_⟩
  · rw [Text.afterPrefix?_eq_some.1 h₁, hs₁, hs₂, hs₃, hs₄]
    simp only [List.append_assoc]
    rw [← hs₅]
  · simp [hne]
  · simp only [plain_append]
    exact ⟨plain_blanks hb, plain_path hpath, plain_blanks hb₃, by decide,
      plain_blanks hb₄, by decide,
      plain_blanks hb₅⟩
  · exact ⟨b, b₃ ++ (['|'] ++ (b₄ ++ ("default(".toList ++ b₅))), List.append_assoc ..⟩

theorem fallbackEnd?_eq_some (h : fallbackEnd? s = some rest) :
    ∃ b after, (∀ c ∈ b, isBlank c) ∧ Plain after ∧
      s = b ++ (')' :: (after ++ (closeBraces ++ rest))) := by
  simp only [fallbackEnd?, Option.bind_eq_bind, Option.bind_eq_some_iff] at h
  obtain ⟨s₁, h₁, h₂⟩ := h
  obtain ⟨b, hb, hs⟩ := afterBlanks?_eq_some h₁
  obtain ⟨after, hafter, hs₁⟩ := afterBlanks?_eq_some h₂
  exact ⟨b, after, hb, plain_blanks hafter, by rw [hs, hs₁]; rfl⟩

/-- **A reference with a quoted text is written anew**, and the quoted text stays. -/
inductive Requoted : List Char → List Char → List Char → Prop
  | intro {before between after before' : List Char} {quote : Char} {rest : List Char}
      (hquote : quote = '\'' ∨ quote = '"') (hne : before ≠ []) (hbefore : Plain before)
      (hafter : Plain after)
      (hbefore' : Plain before') (hne' : before' ≠ [])
        (hhelper : ∀ x, tagSight? (before' ++ x) = none)
      (hmember : elseMember <:+: before' → elseMember <:+: before) :
      Requoted (openBraces ++
        (before ++ quote :: (between ++ quote :: (after ++ (closeBraces ++ rest)))))
        (openBraces ++ (before' ++ '\'' :: (between ++ '\'' :: closeBraces))) rest

/-- The start of a helper's call: its name, a path and the blank before what it is given further. -/
def callStart (name : String) (path : List Char) : List Char :=
  name.toList ++ ' ' :: (path ++ [' '])

section CallStart

variable {name : String} (hname : name = "default" ∨ name = "eq" ∨ name = "ne")

include hname

/-- A member in a helper's call stands in its path or behind it. -/
theorem elseMember_callStart_append {path x : List Char}
    (h : elseMember <:+: callStart name path ++ x) : elseMember <:+: path ∨ elseMember <:+: x := by
  have hnot : ¬ elseMember <:+: name.toList := by
    rw [← Text.occursIn_eq_true]
    rcases hname with rfl | rfl | rfl <;> decide
  have hsplit : callStart name path ++ x = name.toList ++ ' ' :: (path ++ ' ' :: x) := by
    simp only [callStart, List.append_assoc, List.cons_append, List.nil_append]
  rw [hsplit] at h
  rcases (Text.infix_append_cons (by decide)).1 h with h | h
  · exact absurd h hnot
  · exact (Text.infix_append_cons (by decide)).1 h

theorem elseMember_callStart {path : List Char} (h : elseMember <:+: callStart name path) :
    elseMember <:+: path := by
  rw [← List.append_nil (callStart name path)] at h
  exact (elseMember_callStart_append hname h).resolve_right fun h => absurd h.length_le (by decide)

theorem plain_callStart {path : List Char} (hpath : Plain path) : Plain (callStart name path) := by
  have hplain : Plain name.toList := by rcases hname with rfl | rfl | rfl <;> decide
  exact plain_append.2 ⟨hplain, plain_cons.2 ⟨by decide, plain_append.2 ⟨hpath, by decide⟩⟩⟩

omit hname in
theorem callStart_ne_nil (path : List Char) : callStart name path ≠ [] := by simp [callStart]

/-- A helper's call belongs to no block. -/
theorem tagSight?_callStart (path x : List Char) : tagSight? (callStart name path ++ x) = none := by
  rcases hname with rfl | rfl | rfl <;> rfl

end CallStart

/-- A helper's call over a path and something else. -/
theorem reference_call (name : String) (path value : List Char) :
    reference (name.toList ++ ' ' :: (path ++ ' ' :: value)) =
      openBraces ++ (callStart name path ++ (value ++ closeBraces)) := by
  simp only [reference, callStart, List.append_assoc, List.cons_append, List.nil_append]

theorem fallbackCall_eq (path value : List Char) :
    fallbackCall path value =
      openBraces ++ (callStart "default" path ++ (value ++ closeBraces)) := by
  rw [← reference_call, fallbackCall, List.append_assoc, List.append_assoc]
  rfl

theorem singleQuoted_append (between s : List Char) :
    singleQuoted between ++ s = '\'' :: (between ++ '\'' :: s) := by
  simp only [singleQuoted, List.append_assoc, List.cons_append, List.nil_append]

theorem quotedFallback_requoted (h : quotedFallback s = some (text, rest)) :
    Requoted s text rest := by
  simp only [quotedFallback, Option.bind_eq_bind, Option.bind_eq_some_iff] at h
  obtain ⟨⟨path, s₁⟩, h₁, ⟨between, s₂⟩, h₂, s₃, h₃, h₄⟩ := h
  obtain ⟨rfl, rfl⟩ := Prod.mk.inj (Option.some.inj h₄)
  obtain ⟨before, rfl, hne, hbefore, hpath⟩ := fallbackStart?_eq_some h₁
  obtain ⟨quote, hquote, rfl, -⟩ := quotedText?_eq_some h₂
  obtain ⟨b, after, hb, hafter, rfl⟩ := fallbackEnd?_eq_some h₃
  have hname : "default" = "default" ∨ "default" = "eq" ∨ "default" = "ne" := .inl rfl
  have hsplit : b ++ ')' :: (after ++ (closeBraces ++ s₃)) =
      (b ++ ')' :: after) ++ (closeBraces ++ s₃) := by
    rw [List.append_assoc, List.cons_append]
  dsimp only
  rw [fallbackCall_eq, singleQuoted_append, hsplit]
  exact .intro hquote hne hbefore
    (plain_append.2 ⟨plain_blanks hb, plain_cons.2 ⟨by decide, hafter⟩⟩)
    (plain_callStart hname fun c hc => hbefore c (hpath.subset hc)) (callStart_ne_nil path)
    (tagSight?_callStart hname path) fun hm =>
      (elseMember_callStart hname hm).trans hpath

/-- A character that may stand before the quoted text of a comparison. -/
def isUnquoted (c : Char) : Bool := c != '\'' && c != '"' && c != '%'

theorem unquoted_of {p : Char → Bool} (hp : p '\'' = false ∧ p '"' = false ∧ p '%' = false)
    {u : List Char} (hu : ∀ c ∈ u, p c) : ∀ c ∈ u, isUnquoted c := by
  intro c hc
  have hpc := hu c hc
  rw [isUnquoted, Bool.and_eq_true, Bool.and_eq_true, bne_iff_ne, bne_iff_ne, bne_iff_ne]
  refine ⟨⟨?_, ?_⟩, ?_⟩
  · rintro rfl; rw [hp.1] at hpc; cases hpc
  · rintro rfl; rw [hp.2.1] at hpc; cases hpc
  · rintro rfl; rw [hp.2.2] at hpc; cases hpc

theorem comparison?_eq_some {call : List Char} (h : comparison? s = some (call, rest)) :
    ∃ before between quote name path, s = before ++ quote :: (between ++ quote :: rest) ∧
      before ≠ [] ∧ Plain before ∧
      (∀ c ∈ before, isUnquoted c) ∧ (quote = '\'' ∨ quote = '"') ∧ quote ∉ between ∧
      path <:+: before ∧
      (name = "eq" ∨ name = "ne") ∧
      call = name.toList ++ ' ' :: (path ++ ' ' :: singleQuoted between) := by
  simp only [comparison?, Option.bind_eq_bind, Option.bind_eq_some_iff] at h
  obtain ⟨⟨path, s₁⟩, h₁, h⟩ := h
  obtain ⟨rfl, hne, hpath⟩ := path?_eq_some h₁
  obtain ⟨b, hb, hs₁⟩ := trimLeft_split s₁
  -- either operator has two characters, and names a helper
  obtain ⟨operator, name, s₂, hoperator, hunquoted, hname, hrest, between, s₃, hs₃, rfl, rfl⟩ :
      ∃ operator name s₂,
      Plain operator ∧ (∀ c ∈ operator, isUnquoted c) ∧ (name = "eq" ∨ name = "ne") ∧
      Text.trimLeft s₁ = operator ++ s₂ ∧
      ∃ between s₃, quotedText? (Text.trimLeft s₂) = some (between, s₃) ∧
        call = name.toList ++ ' ' :: (path ++ ' ' :: singleQuoted between) ∧ rest = s₃ := by
    have hcall (name : String) (x : List Char) : (name ++ " ").toList ++ path ++ [' '] ++ x =
        name.toList ++ ' ' :: (path ++ ' ' :: x) := by
      simp only [String.toList_append, List.append_assoc, List.cons_append, List.nil_append]; rfl
    split at h
    · rename_i heq
      rw [Option.bind_some] at h
      obtain ⟨⟨between, s₃⟩, hs₃, h⟩ := Option.bind_eq_some_iff.1 h
      obtain ⟨rfl, rfl⟩ := Prod.mk.inj (Option.some.inj h)
      exact ⟨_, "eq", _, by decide, by decide, .inl rfl, Text.afterPrefix?_eq_some.1 heq, between,
        _, hs₃, hcall "eq" _, rfl⟩
    · rename_i heq
      rw [Option.bind_some] at h
      obtain ⟨⟨between, s₃⟩, hs₃, h⟩ := Option.bind_eq_some_iff.1 h
      obtain ⟨rfl, rfl⟩ := Prod.mk.inj (Option.some.inj h)
      exact ⟨_, "ne", _, by decide, by decide, .inr rfl, Text.afterPrefix?_eq_some.1 heq, between,
        _, hs₃, hcall "ne" _, rfl⟩
    · cases h
  obtain ⟨b₂, hb₂, hs₂⟩ := trimLeft_split s₂
  obtain ⟨quote, hquote, hs₃, hbetween⟩ := quotedText?_eq_some hs₃
  refine ⟨path ++ (b ++ (operator ++ b₂)), between, quote, name, path, ?_, ?_, ?_, ?_, hquote,
    hbetween, ?_, hname, rfl⟩
  · rw [hs₁, hrest, hs₂, hs₃]
    simp only [List.append_assoc]
  · simp [hne]
  · simp only [plain_append]
    exact ⟨plain_path hpath, plain_blanks hb, hoperator, plain_blanks hb₂⟩
  · simp only [List.forall_mem_append]
    exact ⟨unquoted_of (by decide) hpath, unquoted_of (by decide) hb, hunquoted,
      unquoted_of (by decide) hb₂⟩
  · exact (List.prefix_append ..).isInfix

theorem comparedOutput_requoted (h : comparedOutput s = some (text, rest)) :
    Requoted s text rest := by
  simp only [comparedOutput, Option.bind_eq_bind, Option.bind_eq_some_iff] at h
  obtain ⟨s₁, h₁, ⟨call, s₂⟩, h₂, s₃, h₃, h₄⟩ := h
  obtain ⟨rfl, rfl⟩ := Prod.mk.inj (Option.some.inj h₄)
  obtain ⟨b, hb, hs₁⟩ := trimLeft_split s₁
  obtain ⟨before, between, quote, name, path, hs₂, hne, hbefore, -, hquote, -, hpath, hname, rfl⟩ :=
    comparison?_eq_some h₂
  obtain ⟨b', hb', rfl⟩ := afterBlanks?_eq_some h₃
  dsimp only
  rw [reference_call, singleQuoted_append, Text.afterPrefix?_eq_some.1 h₁, hs₁, hs₂,
    ← List.append_assoc b]
  exact .intro hquote (by simp [hne]) (plain_append.2 ⟨plain_blanks hb, hbefore⟩) (plain_blanks hb')
    (plain_callStart (.inr hname) fun c hc => hbefore c (hpath.subset hc)) (callStart_ne_nil path)
    (tagSight?_callStart (.inr hname) path)
    fun hm =>
      (elseMember_callStart (.inr hname) hm).trans (hpath.trans (List.suffix_append ..).isInfix)

/-- What a fallback without quotes takes and writes. -/
theorem plainFallback_taken (h : plainFallback s = some (text, rest)) :
    ∃ before value b after path, s =
      openBraces ++ (before ++ (value ++ (b ++ ')' :: (after ++ (closeBraces ++ rest))))) ∧
      text = openBraces ++ (callStart "default" path ++ (value ++ closeBraces)) ∧ before ≠ [] ∧
      Plain before ∧
      (∀ c ∈ b, isBlank c) ∧ Plain after ∧ path <:+: before := by
  simp only [plainFallback, Option.bind_eq_bind, Option.bind_eq_some_iff] at h
  obtain ⟨⟨path, s₁⟩, h₁, s₂, h₂, h₃⟩ := h
  obtain ⟨rfl, rfl⟩ := Prod.mk.inj (Option.some.inj h₃)
  obtain ⟨before, rfl, hne, hbefore, hpath⟩ := fallbackStart?_eq_some h₁
  obtain ⟨b, after, hb, hafter, hs₁⟩ := fallbackEnd?_eq_some h₂
  dsimp only at hs₁ ⊢
  generalize (fun c : Char => c != ')' && c != '\'' && c != '"') = p at hs₁ ⊢
  have hdrop : s₁.drop (s₁.takeWhile p).length = s₁.dropWhile p := by
    have hleft : (s₁.takeWhile p ++ s₁.dropWhile p).drop (s₁.takeWhile p).length = s₁.dropWhile p :=
      List.drop_left
    rwa [List.takeWhile_append_dropWhile] at hleft
  obtain ⟨b', hb', hvalue⟩ := trimRight_split (s₁.takeWhile p)
  refine ⟨before, Text.trimRight (s₁.takeWhile p), b' ++ b, after, path, ?_,
    fallbackCall_eq .., hne, hbefore,
    List.forall_mem_append.2 ⟨hb', hb⟩, hafter, hpath⟩
  rw [List.append_assoc b', ← List.append_assoc (Text.trimRight _), ← hvalue, ← hs₁, hdrop,
    List.takeWhile_append_dropWhile]

/-! ## Variables of loops -/

/-- The name of a loop's variable is a word, and not the one of an alternative. -/
structure IsVariable (name : List Char) : Prop where
  word : ∀ c ∈ name, Text.isWord c
  ne_nil : name ≠ []
  ne_else : name ≠ "else".toList

theorem afterVariable?_eq_some {name : List Char} (h : afterVariable? name s = some rest) :
    ∃ b, (∀ c ∈ b, isBlank c) ∧ s = openBraces ++ (b ++ (name ++ rest)) := by
  simp only [afterVariable?, Option.bind_eq_bind, Option.bind_eq_some_iff] at h
  obtain ⟨s₁, h₁, h₂⟩ := h
  obtain ⟨b, hb, rfl⟩ := afterBlanks?_eq_some h₂
  exact ⟨b, hb, Text.afterPrefix?_eq_some.1 h₁⟩

/-- What the rule for properties of a variable takes and writes. -/
theorem loopProperty_taken {name : List Char} (h : loopProperty name s = some (text, rest)) :
    ∃ b path b', s = openBraces ++ (b ++ (name ++ '.' :: (path ++ (b' ++ (closeBraces ++ rest))))) ∧
      text = openBraces ++ (path ++ closeBraces) ∧ (∀ c ∈ b, isBlank c) ∧ path ≠ [] ∧
      (∀ c ∈ path, isPathChar c) ∧
      ∀ c ∈ b', isBlank c := by
  simp only [loopProperty, Option.bind_eq_bind, Option.bind_eq_some_iff] at h
  obtain ⟨s₁, h₁, s₂, h₂, ⟨path, s₃⟩, h₃, s₄, h₄, h₅⟩ := h
  obtain ⟨rfl, rfl⟩ := Prod.mk.inj (Option.some.inj h₅)
  obtain ⟨b, hb, rfl⟩ := afterVariable?_eq_some h₁
  obtain ⟨rfl, hne, hpath⟩ := path?_eq_some h₃
  obtain ⟨b', hb', rfl⟩ := afterBlanks?_eq_some h₄
  refine ⟨b, path, b', ?_, List.append_assoc .., hb, hne, hpath, hb'⟩
  rw [Text.afterPrefix?_eq_some.1 h₂]
  rfl

/-- What the rule for a variable by itself takes and writes. -/
theorem loopItem_taken {name : List Char} (h : loopItem name s = some (text, rest)) :
    ∃ b b', s = openBraces ++ (b ++ (name ++ (b' ++ (closeBraces ++ rest)))) ∧
      text = reference "this".toList ∧ (∀ c ∈ b, isBlank c) ∧ ∀ c ∈ b', isBlank c := by
  simp only [loopItem, Option.bind_eq_bind, Option.bind_eq_some_iff] at h
  obtain ⟨s₁, h₁, s₂, h₂, h₃⟩ := h
  obtain ⟨rfl, rfl⟩ := Prod.mk.inj (Option.some.inj h₃)
  obtain ⟨b, hb, rfl⟩ := afterVariable?_eq_some h₁
  obtain ⟨b', hb', rfl⟩ := afterBlanks?_eq_some h₂
  exact ⟨b, b', rfl, rfl, hb, hb'⟩

end Runlist.Template
