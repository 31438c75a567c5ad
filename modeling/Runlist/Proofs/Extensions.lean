import Mathlib.Data.List.DropRight
import Runlist.Load.Selection
import Runlist.Proofs.Canonical

/-!
# Paths without their extension

A path is taken apart between slashes, and its last name at its last dot. The extension is cut off
in two steps, which do the same as one but for names like `..yml`: of such a name two dots are left,
and these mean the directory above.

* `segments_iff`: a path has some texts between its slashes exactly if it is written so.
* `splitLast?_of_segments`, `splitLast?_some`: the last name, and what may stand behind it.
* `splitDot?_iff`: a name before and after its last dot.
* `withoutExtension_eq`: **the path without its extension is the path up to its last dot**, unless
  the name in front of that dot is a dot.
* `components_of_names`: the components of names that a path can lead to.
-/

namespace Runlist.FilePath

/-! ## Texts between separators -/

section Split

variable {c : Char} {cs cs' : List Char}

theorem splitAt_ne_nil (c : Char) (cs : List Char) : splitAt c cs ≠ [] := by
  cases cs with
  | nil => exact List.cons_ne_nil _ _
  | cons d cs =>
    rw [splitAt]
    split
    · exact List.cons_ne_nil _ _
    · split <;> exact List.cons_ne_nil _ _

theorem splitAt_cons_of_ne {d : Char} {first : List Char} {rest : List (List Char)} (hd : d ≠ c)
    (h : splitAt c cs = first :: rest) : splitAt c (d :: cs) = (d :: first) :: rest := by
  rw [splitAt, if_neg hd, h]

theorem not_mem_splitAt {piece : List Char} (h : piece ∈ splitAt c cs) : c ∉ piece := by
  induction cs generalizing piece with
  | nil => rw [List.mem_singleton.1 h]; exact List.not_mem_nil
  | cons d cs ih =>
    by_cases hd : d = c
    · rw [splitAt, if_pos hd] at h
      rcases List.mem_cons.1 h with rfl | h
      · exact List.not_mem_nil
      · exact ih h
    · obtain ⟨first, rest, hsplit⟩ := List.exists_cons_of_ne_nil (splitAt_ne_nil c cs)
      rw [splitAt_cons_of_ne hd hsplit] at h
      rw [hsplit] at ih
      rcases List.mem_cons.1 h with rfl | h
      · have hfirst := ih List.mem_cons_self
        rintro (_ | ⟨_, hmem⟩)
        · exact hd rfl
        · exact hfirst hmem
      · exact ih (List.mem_cons_of_mem _ h)

/-- The text is found again between its separators. -/
theorem intercalate_splitAt (c : Char) (cs : List Char) : [c].intercalate (splitAt c cs) = cs := by
  induction cs with
  | nil => rfl
  | cons d cs ih =>
    obtain ⟨first, rest, hsplit⟩ := List.exists_cons_of_ne_nil (splitAt_ne_nil c cs)
    by_cases hd : d = c
    · rw [splitAt, if_pos hd, hsplit, List.intercalate_cons_cons, ← hsplit, ih, hd]
      rfl
    · rw [splitAt_cons_of_ne hd hsplit]
      rw [hsplit] at ih
      cases rest with
      | nil =>
        rw [List.intercalate_singleton] at ih ⊢
        rw [ih]
      | cons second rest =>
        rw [List.intercalate_cons_cons] at ih ⊢
        rw [← ih]
        rfl

/-- Where two texts meet, the last text between separators of the one runs on in the other. -/
theorem splitAt_append_splitAt {before after : List (List Char)} {last first : List Char}
    (h : splitAt c cs = before ++ [last]) (h' : splitAt c cs' = first :: after) :
    splitAt c (cs ++ cs') = before ++ (last ++ first) :: after := by
  induction cs generalizing before last with
  | nil =>
    rw [splitAt, List.singleton_eq_append_iff] at h
    rcases h with ⟨rfl, hlast⟩ | ⟨-, hlast⟩
    · cases hlast; exact h'
    · cases hlast
  | cons d cs ih =>
    by_cases hd : d = c
    · rw [splitAt, if_pos hd] at h
      cases before with
      | nil => exact absurd (List.cons.inj h).2 (splitAt_ne_nil c cs)
      | cons piece before =>
        obtain ⟨rfl, hrest⟩ := List.cons.inj h
        rw [List.cons_append, splitAt, if_pos hd, ih hrest]
        rfl
    · obtain ⟨piece, rest, hsplit⟩ := List.exists_cons_of_ne_nil (splitAt_ne_nil c cs)
      rw [splitAt_cons_of_ne hd hsplit] at h
      cases before with
      | nil =>
        obtain ⟨rfl, rfl⟩ := List.cons.inj h
        exact splitAt_cons_of_ne hd (@ih [] piece hsplit)
      | cons first' before =>
        obtain ⟨rfl, rfl⟩ := List.cons.inj h
        exact splitAt_cons_of_ne hd (@ih (piece :: before) last hsplit)

/-- A text may be taken apart within a text between separators. -/
theorem splitAt_cut {before after : List (List Char)} {front back : List Char}
    (h : splitAt c cs = before ++ (front ++ back) :: after) :
    ∃ body tail, cs = body ++ tail ∧ splitAt c body = before ++ [front] ∧
      splitAt c tail = back :: after := by
  have hpieces : ∀ piece ∈ before ++ (front ++ back) :: after, c ∉ piece :=
    fun piece hpiece => not_mem_splitAt (h ▸ hpiece)
  have hmiddle : c ∉ front ++ back := hpieces _ (List.mem_append_right _ List.mem_cons_self)
  have hbody : splitAt c ([c].intercalate (before ++ [front])) = before ++ [front] := by
    refine splitAt_intercalate (by simp) fun piece hpiece => ?_
    rcases List.mem_append.1 hpiece with hpiece | hpiece
    · exact hpieces piece (List.mem_append_left _ hpiece)
    · rw [List.mem_singleton.1 hpiece]
      exact fun hmem => hmiddle (List.mem_append_left _ hmem)
  have htail : splitAt c ([c].intercalate (back :: after)) = back :: after := by
    refine splitAt_intercalate (List.cons_ne_nil _ _) fun piece hpiece => ?_
    rcases List.mem_cons.1 hpiece with rfl | hpiece
    · exact fun hmem => hmiddle (List.mem_append_right _ hmem)
    · exact hpieces piece (List.mem_append_right _ (List.mem_cons_of_mem _ hpiece))
  refine ⟨_, _, ?_, hbody, htail⟩
  rw [← intercalate_splitAt c (_ ++ _), splitAt_append_splitAt hbody htail, ← h,
    intercalate_splitAt]

/-- The text up to the first separator is at the front. -/
theorem prefix_of_splitAt {first : List Char} {rest : List (List Char)}
    (h : splitAt c cs = first :: rest) : first <+: cs := by
  rw [← intercalate_splitAt c cs, h]
  cases rest with
  | nil => simp only [List.intercalate_singleton, List.prefix_rfl]
  | cons second rest =>
    rw [List.intercalate_cons_cons, List.append_assoc]
    exact List.prefix_append _ _

/-- Of a text that is cut off, the texts between separators are cut off, or are not there. -/
theorem splitAt_take {first : List Char} {rest : List (List Char)}
    (h : splitAt c cs = first :: rest) (n : Nat) :
    ∃ first' rest', splitAt c (cs.take n) = first' :: rest' ∧ first' <+: first ∧
      ∀ piece ∈ rest', ∃ whole ∈ rest, piece <+: whole := by
  have hnone : ∃ first' rest', splitAt c [] = first' :: rest' ∧ first' <+: first ∧
      ∀ piece ∈ rest', ∃ whole ∈ rest, piece <+: whole :=
    ⟨[], [], rfl, List.nil_prefix, fun _ h => (List.not_mem_nil h).elim⟩
  induction cs generalizing first rest n with
  | nil => rw [List.take_nil]; exact hnone
  | cons d cs ih =>
    cases n with
    | zero => exact hnone
    | succ n =>
      obtain ⟨piece, pieces, hsplit⟩ := List.exists_cons_of_ne_nil (splitAt_ne_nil c cs)
      obtain ⟨first', rest', hcut, hprefix, hrest⟩ := ih hsplit n
        ⟨[], [], rfl, List.nil_prefix, fun _ h => (List.not_mem_nil h).elim⟩
      rw [List.take_succ_cons]
      by_cases hd : d = c
      · rw [splitAt, if_pos hd] at h
        obtain ⟨rfl, rfl⟩ := List.cons.inj h
        refine ⟨[], first' :: rest', by rw [splitAt, if_pos hd, hcut], List.nil_prefix, ?_⟩
        rw [hsplit]
        intro p hp
        rcases List.mem_cons.1 hp with rfl | hp
        · exact ⟨piece, List.mem_cons_self, hprefix⟩
        · obtain ⟨whole, hwhole, hp⟩ := hrest p hp
          exact ⟨whole, List.mem_cons_of_mem _ hwhole, hp⟩
      · rw [splitAt_cons_of_ne hd hsplit] at h
        obtain ⟨rfl, rfl⟩ := List.cons.inj h
        exact ⟨d :: first', rest', splitAt_cons_of_ne hd hcut,
          (List.prefix_cons_inj d).2 hprefix, hrest⟩

end Split

/-! ## Segments -/

section Segments

variable {p : FilePath} {names before fillers : List String} {last : String}

theorem splitAt_of_segments (h : p.segments = names) :
    splitAt '/' p.text.toList = names.map String.toList := by
  rw [← h, segments, List.map_map]
  refine ((List.map_congr_left fun piece _ => ?_).trans (List.map_id _)).symm
  exact String.toList_ofList

theorem segments_of_splitAt (h : splitAt '/' p.text.toList = names.map String.toList) :
    p.segments = names := by
  rw [segments, h, List.map_map]
  refine (List.map_congr_left fun name _ => ?_).trans (List.map_id _)
  exact String.ofList_toList

/-- **A path has some texts between its slashes** exactly if it is written so. -/
theorem segments_iff : p.segments = names ↔
    names ≠ [] ∧ (∀ name ∈ names, '/' ∉ name.toList) ∧ p = ofSegments names := by
  have hpieces : (∀ name ∈ names, '/' ∉ name.toList) ↔
      ∀ piece ∈ names.map String.toList, '/' ∉ piece :=
    (List.forall_mem_map (P := fun piece => '/' ∉ piece)).symm
  have htext : (ofSegments names).text.toList = ['/'].intercalate (names.map String.toList) := by
    rw [ofSegments, String.toList_intercalate]; rfl
  constructor
  · intro h
    have hsplit := splitAt_of_segments h
    refine ⟨h ▸ p.segments_ne_nil, hpieces.2 fun piece hpiece =>
      not_mem_splitAt (hsplit ▸ hpiece), ?_⟩
    have hp : p.text.toList = (ofSegments names).text.toList := by
      rw [htext, ← hsplit, intercalate_splitAt]
    cases p
    exact congrArg mk (String.toList_inj.1 hp)
  · rintro ⟨hne, hslash, rfl⟩
    refine segments_of_splitAt ?_
    rw [htext]
    exact splitAt_intercalate (fun hnil => hne (List.map_eq_nil_iff.1 hnil)) (hpieces.1 hslash)

theorem trimSegments_eq_rdropWhile (segments : List String) :
    trimSegments segments = segments.rdropWhile isFiller := rfl

theorem trimSegments_fillers (hfillers : ∀ s ∈ fillers, isFiller s = true) :
    trimSegments fillers = [] :=
  List.rdropWhile_eq_nil_iff.2 hfillers

theorem trimSegments_eq (hfillers : ∀ s ∈ fillers, isFiller s = true)
    (hlast : isFiller last = false) :
    trimSegments (before ++ last :: fillers) = before ++ [last] := by
  rw [trimSegments_eq_rdropWhile]
  induction fillers using List.reverseRecOn with
  | nil =>
    exact List.rdropWhile_concat_neg isFiller before last fun h => by rw [hlast] at h; cases h
  | append_singleton fillers filler ih =>
    rw [← List.cons_append, ← List.append_assoc, List.rdropWhile_concat_pos isFiller _ filler]
    · exact ih fun s hs => hfillers s (List.mem_append_left _ hs)
    · exact hfillers filler (List.mem_append_right _ (List.mem_singleton_self _))

/-- **The last name of a path** is the last text between slashes that counts. -/
theorem splitLast?_of_segments (h : p.segments = before ++ last :: fillers)
    (hfillers : ∀ s ∈ fillers, isFiller s = true) (hlast : isFiller last = false) :
    p.splitLast? = some (before, last) := by
  unfold splitLast?
  rw [h]
  cases before with
  | nil =>
    have hne : last ≠ "" := by rintro rfl; cases hlast
    simp only [List.nil_append, trimSegments_fillers hfillers, List.getLast?_nil, if_neg hne]
  | cons first before =>
    simp only [List.cons_append, trimSegments_eq hfillers hlast, List.getLast?_concat,
      List.dropLast_concat]

theorem splitLast?_some (h : p.splitLast? = some (before, last)) :
    last ≠ "" ∧ ∃ fillers, p.segments = before ++ last :: fillers ∧
    ∀ s ∈ fillers, isFiller s = true := by
  obtain ⟨first, rest, hsegments⟩ := List.exists_cons_of_ne_nil p.segments_ne_nil
  have hrest : trimSegments rest ++ rest.rtakeWhile isFiller = rest :=
    List.rdropWhile_append_rtakeWhile
  have hfillers : ∀ s ∈ rest.rtakeWhile isFiller, isFiller s = true :=
    fun s hs => List.mem_rtakeWhile_imp hs
  unfold splitLast? at h
  rw [hsegments] at h
  simp only at h
  rw [hsegments, ← hrest]
  rcases List.eq_nil_or_concat (trimSegments rest) with hnil | ⟨front, name, hconcat⟩
  · simp only [hnil, List.getLast?_nil] at h
    split at h
    · cases h
    · rename_i hne
      cases h
      exact ⟨hne, _, by rw [hnil]; rfl, hfillers⟩
  · rw [List.concat_eq_append] at hconcat
    simp only [hconcat, List.getLast?_concat, List.dropLast_concat, Option.some.injEq,
      Prod.mk.injEq] at h
    obtain ⟨rfl, rfl⟩ := h
    refine ⟨?_, _, by rw [hconcat, List.append_assoc]; rfl, hfillers⟩
    rintro rfl
    -- the last of what is left counts
    have hlast :=
      List.rdropWhile_last_not isFiller rest (by rw [← trimSegments_eq_rdropWhile, hconcat]; simp)
    simp only [← trimSegments_eq_rdropWhile, hconcat, List.getLast_concat] at hlast
    exact hlast rfl

end Segments

/-! ## The last dot -/

section Dots

variable {p : FilePath} {name stem ext : String} {before fillers : List String}

theorem toList_dotted (stem ext : String) :
    (stem ++ "." ++ ext).toList = stem.toList ++ '.' :: ext.toList := by
  rw [String.toList_append, String.toList_append, List.append_assoc]; rfl

theorem toList_ne_nil (h : stem ≠ "") : stem.toList ≠ [] :=
  fun hnil => h (String.toList_eq_nil_iff.1 hnil)

/-- **A name before and after its last dot.** -/
theorem splitDot?_iff : splitDot? name = some (stem, ext) ↔
    name = stem ++ "." ++ ext ∧ '.' ∉ ext.toList ∧ stem ≠ "" := by
  constructor
  · intro h
    unfold splitDot? at h
    simp only at h
    -- read from its end, the name is the extension up to the first dot, and then what stands in
    -- front
    have hwhole :
        name.toList.reverse.takeWhile (· != '.') ++ name.toList.reverse.dropWhile (· != '.') =
        name.toList.reverse := List.takeWhile_append_dropWhile
    split at h
    · cases h
    · rename_i d front hdrop
      split at h
      · cases h
      · rename_i hfront
        cases h
        have hd : d = '.' := by
          have hstop := List.head?_dropWhile_not (· != '.') name.toList.reverse
          rw [hdrop] at hstop
          simpa using hstop
        rw [hdrop, hd] at hwhole
        refine ⟨String.toList_inj.1 ?_, ?_, ?_⟩
        · rw [toList_dotted, String.toList_ofList, String.toList_ofList]
          have hback := congrArg List.reverse hwhole
          rw [List.reverse_reverse, List.reverse_append, List.reverse_cons,
            List.append_assoc] at hback
          exact hback.symm
        · rw [String.toList_ofList, List.mem_reverse]
          intro hmem
          have hdot := List.mem_takeWhile_imp hmem
          simp at hdot
        · intro hempty
          have hnil := congrArg String.toList hempty
          rw [String.toList_ofList] at hnil
          exact hfront (List.isEmpty_iff.2 (List.reverse_eq_nil_iff.1 hnil))
  · rintro ⟨rfl, hext, hstem⟩
    have hreverse :
        (stem ++ "." ++ ext).toList.reverse = ext.toList.reverse ++ '.' :: stem.toList.reverse := by
      rw [toList_dotted, List.reverse_append, List.reverse_cons, List.append_assoc]; rfl
    have hkeep : ∀ d ∈ ext.toList.reverse, (d != '.') = true := by
      intro d hd
      rw [bne_iff_ne]
      rintro rfl
      exact hext (List.mem_reverse.1 hd)
    have hdrop : (ext.toList.reverse ++ '.' :: stem.toList.reverse).dropWhile (· != '.') =
        '.' :: stem.toList.reverse := by
      rw [List.dropWhile_append_of_pos hkeep]; rfl
    have htake : (ext.toList.reverse ++ '.' :: stem.toList.reverse).takeWhile (· != '.') =
        ext.toList.reverse := by
      rw [List.takeWhile_append_of_pos hkeep]
      exact List.append_nil _
    have hnonempty : ¬ stem.toList.reverse.isEmpty = true := by
      rw [List.isEmpty_iff, List.reverse_eq_nil_iff]
      exact toList_ne_nil hstem
    unfold splitDot?
    simp only [hreverse, hdrop, htake, if_neg hnonempty, List.reverse_reverse, String.ofList_toList]

theorem isFiller_dotted (hstem : stem ≠ "") : isFiller (stem ++ "." ++ ext) = false := by
  obtain ⟨c, cs, hchars⟩ := List.exists_cons_of_ne_nil (toList_ne_nil hstem)
  have hlength : 2 ≤ (stem ++ "." ++ ext).toList.length := by
    rw [toList_dotted, hchars, List.length_append, List.length_cons, List.length_cons]; omega
  unfold isFiller
  simp only [Bool.or_eq_false_iff, decide_eq_false_iff_not]
  constructor <;> intro h <;> rw [h] at hlength <;> revert hlength <;> decide

/-- The name of a path whose last text that counts has a dot in it. -/
theorem fileName?_dotted (h : p.segments = before ++ (stem ++ "." ++ ext) :: fillers)
    (hfillers : ∀ s ∈ fillers, isFiller s = true) (hstem : stem ≠ "")
    (hup : stem ++ "." ++ ext ≠ "..") :
    p.splitLast? = some (before, stem ++ "." ++ ext) ∧ p.fileName? = some (stem ++ "." ++ ext) := by
  have hfiller : isFiller (stem ++ "." ++ ext) = false := isFiller_dotted hstem
  have hlast := splitLast?_of_segments h hfillers hfiller
  have hdot : stem ++ "." ++ ext ≠ "." := by
    intro hdot
    rw [hdot] at hfiller
    cases hfiller
  refine ⟨hlast, ?_⟩
  rw [fileName?, hlast, Option.bind_some]
  simp [hdot, hup]

/-- The extension of a path, and the name in front of it. -/
theorem extension?_dotted (h : p.segments = before ++ (stem ++ "." ++ ext) :: fillers)
    (hfillers : ∀ s ∈ fillers, isFiller s = true) (hstem : stem ≠ "")
    (hup : stem ++ "." ++ ext ≠ "..") (hext : '.' ∉ ext.toList) : p.extension? = some ext ∧
    p.fileStem? = some stem := by
  obtain ⟨-, hname⟩ := fileName?_dotted h hfillers hstem hup
  have hdot : splitDot? (stem ++ "." ++ ext) = some (stem, ext) :=
    splitDot?_iff.2 ⟨rfl, hext, hstem⟩
  constructor
  · rw [extension?, hname, Option.bind_some, hdot]; rfl
  · rw [fileStem?, hname, Option.map_some, hdot]; rfl

/-- The path up to the last dot of its name. -/
theorem upToDot_dotted (h : p.segments = before ++ (stem ++ "." ++ ext) :: fillers)
    (hfillers : ∀ s ∈ fillers, isFiller s = true) (hstem : stem ≠ "")
    (hup : stem ++ "." ++ ext ≠ "..") (hext : '.' ∉ ext.toList) :
    p.upToDot = ofSegments (before ++ [stem]) := by
  obtain ⟨hlast, -⟩ := fileName?_dotted h hfillers hstem hup
  obtain ⟨-, hfileStem⟩ := extension?_dotted h hfillers hstem hup hext
  rw [upToDot, hlast, hfileStem]

/-- A path with an extension has a name in front of it, behind which nothing counts. -/
theorem extension?_some (h : p.extension? = some ext) : ∃ before stem fillers,
    p.segments = before ++ (stem ++ "." ++ ext) :: fillers ∧
    (∀ s ∈ fillers, isFiller s = true) ∧ stem ≠ "" ∧
      '.' ∉ ext.toList ∧ stem ++ "." ++ ext ≠ ".." := by
  obtain ⟨name, hname, h⟩ := Option.bind_eq_some_iff.1 h
  obtain ⟨⟨stem, ext'⟩, hdot, rfl⟩ := Option.map_eq_some_iff.1 h
  obtain ⟨rfl, hext, hstem⟩ := splitDot?_iff.1 hdot
  obtain ⟨⟨before, last⟩, hlast, hname⟩ := Option.bind_eq_some_iff.1 hname
  obtain ⟨-, fillers, hsegments, hfillers⟩ := splitLast?_some hlast
  simp only at hname
  split at hname
  · cases hname
  · rename_i hspecial
    cases hname
    refine ⟨before, stem, fillers, hsegments, hfillers, hstem, hext, fun hup => hspecial ?_⟩
    rw [hup]; rfl

/-- What is left of a filler that is cut off is one. -/
theorem isFiller_of_prefix {piece : List Char} {whole : String} (h : piece <+: whole.toList)
    (hwhole : isFiller whole = true) : isFiller (String.ofList piece) = true := by
  unfold isFiller at hwhole
  rw [Bool.or_eq_true, decide_eq_true_eq, decide_eq_true_eq] at hwhole
  rcases hwhole with rfl | rfl
  · rw [List.prefix_nil.1 h]; rfl
  · rcases List.prefix_cons_iff.1 h with rfl | ⟨rest, rfl, hrest⟩
    · rfl
    · rw [List.prefix_nil.1 hrest]; rfl

/-- **The path without its extension is the path up to its last dot**, unless in front of that dot
there is only another. -/
theorem withoutExtension_eq (h : p.extension? = some ext) (hstem : p.fileStem? ≠ some ".") :
    p.withoutExtension = p.upToDot := by
  obtain ⟨before, stem, fillers, hsegments, hfillers, hne, hext, hup⟩ := extension?_some h
  obtain ⟨-, hfileStem⟩ := extension?_dotted hsegments hfillers hne hup hext
  have hsplit : splitAt '/' p.text.toList =
      before.map String.toList ++ ((stem.toList ++ ['.']) ++ ext.toList) ::
        fillers.map String.toList := by
    rw [splitAt_of_segments hsegments, List.map_append, List.map_cons, toList_dotted,
      List.append_assoc]; rfl
  -- the text in front of the extension, and the one from there on, of which as much is cut off
  obtain ⟨body, tail, htext, hbody, htail⟩ := splitAt_cut hsplit
  obtain ⟨ext', rest, hcut, hstart, hrest⟩ := splitAt_take htail (tail.length - ext.toList.length)
  have hle : ext.toList.length ≤ tail.length := (prefix_of_splitAt htail).length_le
  have hleft : p.text.toList.take (p.text.toList.length - ext.toList.length) =
      body ++ tail.take (tail.length - ext.toList.length) := by
    rw [htext, List.length_append, List.take_append, List.take_of_length_le (by omega)]
    congr 2
    omega
  have hsegments' : (⟨String.ofList
        (p.text.toList.take (p.text.toList.length - ext.toList.length))⟩ : FilePath).segments =
      before ++ (stem ++ "." ++ String.ofList ext') :: rest.map String.ofList := by
    refine segments_of_splitAt ?_
    rw [String.toList_ofList, hleft, splitAt_append_splitAt hbody hcut, List.map_append,
      List.map_cons, toList_dotted, List.map_map, String.toList_ofList, List.append_assoc]
    congr 2
    exact ((List.map_congr_left fun piece _ => String.toList_ofList).trans (List.map_id _)).symm
  have hplain : stem ++ "." ++ String.ofList ext' ≠ ".." := by
    intro hdots
    refine hstem (hfileStem.trans (congrArg some ?_))
    have hchars := congrArg String.toList hdots
    rw [toList_dotted, String.toList_ofList] at hchars
    -- of two dots, one is the last dot and the other is in front of it
    have hlength := congrArg List.length hchars
    rw [List.length_append, List.length_cons] at hlength
    have hpositive := List.length_pos_iff.2 (toList_ne_nil hne)
    have htwo : "..".toList = ['.'] ++ '.' :: [] := rfl
    rw [htwo] at hchars hlength
    have hfront := (List.append_inj hchars (by simp at hlength ⊢; omega)).1
    exact String.toList_inj.1 hfront
  rw [withoutExtension, h]
  simp only
  rw [upToDot_dotted hsegments' ?_ hne hplain ?_, upToDot_dotted hsegments hfillers hne hup hext]
  · intro s hs
    obtain ⟨piece, hpiece, rfl⟩ := List.mem_map.1 hs
    obtain ⟨whole, hwhole, hpiece⟩ := hrest piece hpiece
    obtain ⟨filler, hfiller, rfl⟩ := List.mem_map.1 hwhole
    exact isFiller_of_prefix hpiece (hfillers filler hfiller)
  · rw [String.toList_ofList]
    exact fun hdot => hext (hstart.subset hdot)

end Dots


/-! ## Components -/

section Components

variable {s : String} {names : List String}

/-- The component for which a text between slashes stands, if it counts. -/
def Component.ofName (s : String) : Component := if s = ".." then .up else .name s

theorem Component.ofSegment?_eq (h : isFiller s = false) :
    Component.ofSegment? s = some (Component.ofName s) := by
  unfold isFiller at h
  unfold Component.ofSegment? Component.ofName
  rw [if_neg (by simpa using h)]
  split <;> rfl

theorem Component.ofName_injective : Function.Injective Component.ofName := by
  intro s s' h
  unfold Component.ofName at h
  split at h <;> split at h
  · rename_i hs hs'; rw [hs, hs']
  · cases h
  · cases h
  · cases h; rfl

/-- A path that starts with a name is not absolute. -/
theorem isAbsolute_of_segments {p : FilePath} {first : String} {rest : List String}
    (h : p.segments = first :: rest) (hfirst : first ≠ "") : p.isAbsolute = false := by
  obtain ⟨-, hslash, -⟩ := segments_iff.1 h
  have hsplit := splitAt_of_segments h
  rw [List.map_cons] at hsplit
  obtain ⟨c, cs, hchars⟩ := List.exists_cons_of_ne_nil (toList_ne_nil hfirst)
  obtain ⟨rest, htext⟩ := prefix_of_splitAt hsplit
  rw [isAbsolute, ← htext, hchars, List.cons_append, List.head?_cons, beq_eq_false_iff_ne]
  rintro ⟨⟩
  refine hslash first List.mem_cons_self ?_
  rw [hchars]
  exact List.mem_cons_self

/-- **The components of names that count** are these names. -/
theorem components_of_names {p : FilePath} (h : p.segments = names)
    (hcounts : ∀ s ∈ names, isFiller s = false) : p.components = names.map Component.ofName := by
  cases names with
  | nil => exact absurd h p.segments_ne_nil
  | cons first rest =>
    have hfirst := hcounts first List.mem_cons_self
    have hne : first ≠ "" := by rintro rfl; cases hfirst
    have hdot : first ≠ "." := by rintro rfl; cases hfirst
    have hrest : rest.filterMap Component.ofSegment? = rest.map Component.ofName := by
      rw [← List.filterMap_eq_map]
      exact List.filterMap_congr fun s hs =>
        Component.ofSegment?_eq (hcounts s (List.mem_cons_of_mem _ hs))
    unfold components
    rw [h]
    simp only [isAbsolute_of_segments h hne, Bool.false_eq_true, if_false, if_neg hdot,
      Component.ofSegment?_eq hfirst, hrest]
    rfl

end Components

/-! ## Documents -/

section Documents

variable {p : FilePath} {file before fillers : List String} {stem ext : String}

/-- One of the two extensions of documents. -/
def YamlExtension (ext : String) : Prop := ext = "yml" ∨ ext = "yaml"

theorem isYaml_iff : p.isYaml = true ↔ ∃ ext, p.extension? = some ext ∧ YamlExtension ext := by
  unfold isYaml YamlExtension
  rw [Bool.or_eq_true, beq_iff_eq, beq_iff_eq]
  constructor
  · rintro (h | h)
    · exact ⟨_, h, .inl rfl⟩
    · exact ⟨_, h, .inr rfl⟩
  · rintro ⟨ext, h, rfl | rfl⟩
    · exact .inl h
    · exact .inr h

namespace YamlExtension

theorem not_mem_dot (h : YamlExtension ext) : '.' ∉ ext.toList := by
  rcases h with rfl | rfl <;> decide

theorem not_mem_slash (h : YamlExtension ext) : '/' ∉ ("." ++ ext).toList := by
  rcases h with rfl | rfl <;> decide

theorem ne_up (h : YamlExtension ext) (stem : String) : stem ++ "." ++ ext ≠ ".." := by
  intro hup
  have hlength := congrArg String.length hup
  rw [String.length_append, String.length_append] at hlength
  rcases h with rfl | rfl
  · have hlong : stem.length + 1 + 3 = 2 := hlength
    omega
  · have hlong : stem.length + 1 + 4 = 2 := hlength
    omega

end YamlExtension

/-- A path whose last name is that of a document. -/
theorem isYaml_dotted (h : p.segments = before ++ (stem ++ "." ++ ext) :: fillers)
    (hfillers : ∀ s ∈ fillers, isFiller s = true) (hstem : stem ≠ "") (hyaml : YamlExtension ext) :
    p.isYaml = true :=
  isYaml_iff.2 ⟨ext,
    (extension?_dotted h hfillers hstem (hyaml.ne_up stem) hyaml.not_mem_dot).1, hyaml⟩

theorem segments_names (hproper : ∀ name ∈ file, FileTree.ProperName name) (hne : file ≠ []) :
    (⟨"/".intercalate file⟩ : FilePath).segments = file :=
  segments_iff.2 ⟨hne, fun name hname => (hproper name hname).slash, rfl⟩

/-- **A file is a document** if its name has a part in front of one of the two extensions. -/
theorem isYaml_names (hproper : ∀ name ∈ file, FileTree.ProperName name) :
    (⟨"/".intercalate file⟩ : FilePath).isYaml = true ↔
    ∃ before stem ext, file = before ++ [stem ++ "." ++ ext] ∧
      stem ≠ "" ∧ YamlExtension ext := by
  constructor
  · intro h
    obtain ⟨ext, hext, hyaml⟩ := isYaml_iff.1 h
    obtain ⟨before, stem, fillers, hsegments, hfillers, hstem, -, -⟩ := extension?_some hext
    have hne : file ≠ [] := by
      rintro rfl
      have hnone : (⟨"/".intercalate []⟩ : FilePath).extension? = none := by decide
      rw [hnone] at hext
      cases hext
    rw [segments_names hproper hne] at hsegments
    -- no name of a file is a filler
    have hnil : fillers = [] := by
      refine List.eq_nil_iff_forall_not_mem.2 fun s hs => ?_
      have hs' :=
        (hproper s (hsegments ▸ List.mem_append_right _ (List.mem_cons_of_mem _ hs))).filler
      rw [hfillers s hs] at hs'
      cases hs'
    rw [hnil] at hsegments
    exact ⟨before, stem, ext, hsegments, hstem, hyaml⟩
  · rintro ⟨before, stem, ext, hfile, hstem, hyaml⟩
    have hsegments : (⟨"/".intercalate file⟩ : FilePath).segments =
        before ++ (stem ++ "." ++ ext) :: [] := by
      rw [segments_names hproper (by rw [hfile]; simp), hfile]
    exact isYaml_dotted hsegments (fun _ h => (List.not_mem_nil h).elim) hstem hyaml

/-- The components of a document without its extension are the names above it and the part in front
of the extension. -/
theorem components_document
    (hproper : ∀ name ∈ before ++ [stem ++ "." ++ ext], FileTree.ProperName name)
    (hstem : stem ≠ "") (hdot : stem ≠ ".") (hyaml : YamlExtension ext) :
    (⟨"/".intercalate (before ++ [stem ++ "." ++ ext])⟩ : FilePath).upToDot.components =
      (before ++ [stem]).map Component.ofName := by
  have hsegments := segments_names hproper (by simp)
  have hup :=
    upToDot_dotted hsegments (fun _ h => (List.not_mem_nil h).elim) hstem (hyaml.ne_up stem)
      hyaml.not_mem_dot
  rw [hup]
  refine components_of_names (segments_iff.2 ⟨by simp, fun name hname => ?_, rfl⟩)
    fun name hname => ?_
  · rcases List.mem_append.1 hname with hname | hname
    · exact (hproper name (List.mem_append_left _ hname)).slash
    · have hlast := (hproper _ (List.mem_append_right _ (List.mem_singleton_self _))).slash
      rw [List.mem_singleton.1 hname]
      rw [toList_dotted] at hlast
      exact fun hmem => hlast (List.mem_append_left _ hmem)
  · rcases List.mem_append.1 hname with hname | hname
    · exact (hproper name (List.mem_append_left _ hname)).filler
    · rw [List.mem_singleton.1 hname, isFiller]
      simp [hstem, hdot]

/-- A path that is written further, in its last name. -/
theorem segments_extended {x w last : String} (h : (⟨x⟩ : FilePath).segments = before ++ [last])
    (hw : '/' ∉ w.toList) : (⟨x ++ w⟩ : FilePath).segments = before ++ [last ++ w] := by
  have hsplit := splitAt_of_segments h
  rw [List.map_append] at hsplit
  refine segments_of_splitAt ?_
  rw [String.toList_append, splitAt_append_splitAt hsplit (splitAt_piece hw), List.map_append,
    List.map_cons, String.toList_append]
  rfl

/-! ### The extension of a document cut off -/

/-- **The path without the extension of a document**, if it has one. -/
def plain (p : FilePath) : FilePath := if p.isYaml then p.upToDot else p

/-- The path is that of a document with nothing but a dot in front of its extension. -/
def isDotted (p : FilePath) : Bool := p.isYaml && p.fileStem? == some "."

theorem plain_of_yaml (h : p.isYaml = true) : p.plain = p.upToDot := if_pos h

/-- Of a document the extension is cut off, unless there is nothing but a dot in front of it. -/
theorem withoutExtension_document (h : p.isYaml = true) (hdotted : p.isDotted = false) :
    p.withoutExtension = p.plain := by
  obtain ⟨ext, hext, -⟩ := isYaml_iff.1 h
  rw [plain_of_yaml h]
  refine withoutExtension_eq hext fun hstem => ?_
  rw [isDotted, h, hstem] at hdotted
  cases hdotted

/-- The name of files without the extension of a document. -/
theorem stem_eq (name : String) (hdotted : (⟨name⟩ : FilePath).isDotted = false) :
    RoleSelection.stem name = plain ⟨name⟩ := by
  unfold RoleSelection.stem
  simp only
  split
  · rename_i hyaml
    exact withoutExtension_document hyaml hdotted
  · rename_i hyaml
    exact (if_neg hyaml).symm

section Extended

variable {x last : String} (h : (⟨x⟩ : FilePath).segments = before ++ [last])
  (hlast : isFiller last = false)
  (hyaml : YamlExtension ext)

include h hlast hyaml

/-- A path that is written further by an extension has a name before it. -/
theorem extension?_extended :
    (⟨x ++ "." ++ ext⟩ : FilePath).isYaml = true ∧
    (⟨x ++ "." ++ ext⟩ : FilePath).fileStem? = some last ∧
    (⟨x ++ "." ++ ext⟩ : FilePath).upToDot = ⟨x⟩ := by
  have hne : last ≠ "" := by rintro rfl; cases hlast
  have hsegments :
      (⟨x ++ "." ++ ext⟩ : FilePath).segments = before ++ (last ++ "." ++ ext) :: [] := by
    rw [String.append_assoc, segments_extended h hyaml.not_mem_slash, String.append_assoc]
  have hnone : ∀ s ∈ ([] : List String), isFiller s = true := fun _ h => (List.not_mem_nil h).elim
  obtain ⟨-, hstem⟩ := extension?_dotted hsegments hnone hne (hyaml.ne_up last) hyaml.not_mem_dot
  refine ⟨isYaml_dotted hsegments hnone hne hyaml, hstem, ?_⟩
  rw [upToDot_dotted hsegments hnone hne (hyaml.ne_up last) hyaml.not_mem_dot]
  exact (segments_iff.1 h).2.2.symm

/-- **A path with one of the extensions is without it what it was.** -/
theorem plain_extended : plain ⟨x ++ "." ++ ext⟩ = ⟨x⟩ := by
  obtain ⟨hisYaml, -, hup⟩ := extension?_extended h hlast hyaml
  rw [plain_of_yaml hisYaml, hup]

theorem isDotted_extended : (⟨x ++ "." ++ ext⟩ : FilePath).isDotted = false := by
  obtain ⟨hisYaml, hstem, -⟩ := extension?_extended h hlast hyaml
  rw [isDotted, hisYaml, hstem, Bool.true_and, beq_eq_false_iff_ne]
  rintro hdot
  cases hdot
  cases hlast

end Extended

end Documents

end Runlist.FilePath
