import HttpSnippet.CommandLine.Command
import HttpSnippet.Proofs.Conversion

/-!
# Flags of a command line

Reading the words of a command applies the flags that they give, one after the other. What a
command line asks for is thus decided by its flags in their order, whatever way they are spelled.
-/
namespace HttpSnippet.CommandLine

section
variable {σ : Type}

/-- The flags that the words of a command line give, in order. The words after one that stops the
reading are not looked at. -/
def flagUses (flags : List (Flag σ)) : List (Word σ) → List (FlagUse σ)
  | [] => []
  | .flag f name (some value) :: words =>
    ((withValue flags f name value).toOption.getD []) ++ flagUses flags words
  | .flag f name none :: words =>
    if f.hasValue then
      match words with
      | .plain value :: words => ⟨f, name, .ofText value⟩ :: flagUses flags words
      | _ => []
    else ⟨f, name, .nothing⟩ :: flagUses flags words
  | _ :: words => flagUses flags words

/-- Applies flags one after the other. -/
def applyUses (uses : List (FlagUse σ)) (a : σ) : Except Stop σ :=
  uses.foldlM (fun a u => u.flag.apply u.name u.given a) a

variable {flags : List (Flag σ)} {a b c : σ} {uses more : List (FlagUse σ)}

theorem applyUses_cons {u : FlagUse σ} : applyUses (u :: uses) a = .ok c ↔
    ∃ b, u.flag.apply u.name u.given a = .ok b ∧ applyUses uses b = .ok c := by
  unfold applyUses
  rw [List.foldlM_cons]
  cases u.flag.apply u.name u.given a <;> simp [bind, Except.bind]

theorem applyUses_append (h : applyUses uses a = .ok b) (hmore : applyUses more b = .ok c) :
    applyUses (uses ++ more) a = .ok c := by
  unfold applyUses at *
  rw [List.foldlM_append, h]
  exact hmore

theorem applyUses_of_use {r r' : Reading σ} (h : r.use uses = .ok r') :
    applyUses uses r.arguments = .ok r'.arguments := by
  unfold Reading.use at h
  induction uses generalizing r with
  | nil =>
    cases h
    rfl
  | cons u uses ih =>
    rw [List.foldlM_cons] at h
    cases happly : u.flag.apply u.name u.given r.arguments with
    | error stop =>
      rw [happly] at h
      cases h
    | ok b =>
      rw [happly] at h
      exact applyUses_cons.mpr ⟨b, happly, ih h⟩

/-- What the words of a command come to is what their flags come to. -/
theorem applyUses_of_takeWords {words : List (Word σ)} {r r' : Reading σ}
    (h : Reading.takeWords flags words r = .ok r') :
    applyUses (flagUses flags words) r.arguments = .ok r'.arguments := by
  fun_induction flagUses flags words generalizing r with
  | case1 =>
    cases h
    rfl
  | case2 f name value words ih =>
    rw [Reading.takeWords] at h
    obtain ⟨uses, huses, h⟩ := bind_eq_ok.mp h
    obtain ⟨r, hr, h⟩ := bind_eq_ok.mp h
    rw [huses]
    exact applyUses_append (applyUses_of_use hr) (ih h)
  | case3 f name hvalue value words ih =>
    rw [Reading.takeWords, if_pos hvalue] at h
    obtain ⟨r, hr, h⟩ := bind_eq_ok.mp h
    exact applyUses_append (applyUses_of_use hr) (ih h)
  | case4 f name words hvalue hplain =>
    rw [Reading.takeWords, if_pos hvalue] at h
    · cases h
    · exact hplain
  | case5 f name words hvalue ih =>
    rw [Reading.takeWords.eq_def] at h
    simp only [hvalue] at h
    obtain ⟨r, hr, h⟩ := bind_eq_ok.mp h
    exact applyUses_append (applyUses_of_use hr) (ih h)
  | case6 word words hsome hnone ih =>
    rw [Reading.takeWords] at h
    · have happly := ih h
      exact happly
    · exact hsome
    · exact hnone

/-! ### Where flags come from -/

theorem mem_of_mem_namesOf {name : Text} {f : Flag σ} (h : (name, f) ∈ namesOf flags) :
    f ∈ flags := by
  obtain ⟨g, hg, hmem⟩ := List.mem_flatMap.mp h
  obtain ⟨_, -, hpair⟩ := List.mem_map.mp hmem
  obtain ⟨-, rfl⟩ := Prod.mk.inj hpair
  exact hg

theorem mem_of_flagOf? {name : Text} {f : Flag σ} (h : flagOf? flags name = some f) :
    f ∈ flags := by
  obtain ⟨⟨key, g⟩, hfind, rfl⟩ := Option.map_eq_some_iff.mp h
  exact mem_of_mem_namesOf (List.mem_of_find?_eq_some hfind)

theorem mem_of_mem_candidates {t name : Text} {f : Flag σ} {value : Option Text}
    (h : (name, f, value) ∈ candidates flags t) : f ∈ flags := by
  unfold candidates at h
  split at h
  · obtain ⟨⟨key, g⟩, hmem, hpair⟩ := List.mem_filterMap.mp h
    obtain ⟨-, hsome⟩ := Option.ite_none_right_eq_some.mp hpair
    obtain ⟨-, hflag⟩ := Prod.mk.inj (Option.some.inj hsome)
    obtain ⟨rfl, -⟩ := Prod.mk.inj hflag
    exact mem_of_mem_namesOf hmem
  · obtain ⟨⟨key, g⟩, hmem, hpair⟩ := List.mem_filterMap.mp h
    dsimp only at hpair
    split at hpair
    · cases hpair
      exact mem_of_mem_namesOf hmem
    · split at hpair
      · cases hpair
        exact mem_of_mem_namesOf hmem
      · cases hpair

theorem mem_of_classify {t name : Text} {f : Flag σ} {value : Option Text}
    (h : classify flags t = .ok (.flag f name value)) : f ∈ flags := by
  unfold classify at h
  dsimp only at h
  split at h
  · rename_i hflag
    cases h
    exact mem_of_flagOf? hflag
  · rename_i hflag
    cases h
    exact mem_of_flagOf? hflag
  · split at h
    · rename_i hcandidates
      cases h
      have hmem := List.mem_singleton_self (name, f, value)
      rw [← hcandidates] at hmem
      exact mem_of_mem_candidates hmem
    · split at h <;> cases h
    · cases h
  · cases h

theorem mem_of_classifyAll {ts : List Text} {words : List (Word σ)}
    (h : classifyAll flags ts = .ok words) {f : Flag σ} {name : Text} {value : Option Text}
    (hmem : Word.flag f name value ∈ words) : f ∈ flags := by
  induction ts generalizing words with
  | nil =>
    cases h
    exact absurd hmem List.not_mem_nil
  | cons t ts ih =>
    rw [classifyAll] at h
    split at h
    · cases h
      simp at hmem
    · obtain ⟨word, hword, h⟩ := bind_eq_ok.mp h
      obtain ⟨rest, hrest, h⟩ := bind_eq_ok.mp h
      cases h
      rcases List.mem_cons.mp hmem with rfl | hmem
      · exact mem_of_classify hword
      · exact ih hrest hmem

theorem mem_of_shared {f : Flag σ} (hf : f ∈ flags) {name rest : Text}
    (h : shared flags f name rest = .ok uses) : ∀ u ∈ uses, u.flag ∈ flags := by
  induction rest generalizing f name uses with
  | nil =>
    cases h
    simpa using hf
  | cons c rest ih =>
    rw [shared] at h
    split at h
    · cases h
    · rename_i g hg
      have hg := mem_of_flagOf? hg
      dsimp only at h
      split at h
      · cases h
        exact List.forall_mem_cons.mpr ⟨hf, by simpa using hg⟩
      · obtain ⟨others, hothers, h⟩ := bind_eq_ok.mp h
        cases h
        exact List.forall_mem_cons.mpr ⟨hf, ih hg hothers⟩

theorem mem_of_withValue {f : Flag σ} (hf : f ∈ flags) {name value : Text}
    (h : withValue flags f name value = .ok uses) : ∀ u ∈ uses, u.flag ∈ flags := by
  unfold withValue at h
  split at h
  · cases h
    simpa using hf
  · split at h
    · exact mem_of_shared hf h
    · cases h

theorem mem_of_flagUses {words : List (Word σ)}
    (h : ∀ f name value, Word.flag f name value ∈ words → f ∈ flags) :
    ∀ u ∈ flagUses flags words, u.flag ∈ flags := by
  fun_induction flagUses flags words with
  | case1 => exact fun _ hu => absurd hu List.not_mem_nil
  | case2 f name value words ih =>
    intro u hu
    rcases List.mem_append.mp hu with hu | hu
    · cases huses : withValue flags f name value with
      | error stop =>
        rw [huses] at hu
        exact absurd hu List.not_mem_nil
      | ok uses =>
        rw [huses] at hu
        exact mem_of_withValue (h _ _ _ List.mem_cons_self) huses u hu
    · exact ih (fun f name value hmem => h f name value (List.mem_cons_of_mem _ hmem)) u hu
  | case3 f name hvalue value words ih =>
    refine List.forall_mem_cons.mpr ⟨h _ _ _ List.mem_cons_self, ih fun f name value hmem => ?_⟩
    exact h f name value (List.mem_cons_of_mem _ (List.mem_cons_of_mem _ hmem))
  | case4 => exact fun _ hu => absurd hu List.not_mem_nil
  | case5 f name words hvalue ih =>
    refine List.forall_mem_cons.mpr ⟨h _ _ _ List.mem_cons_self, ih fun f name value hmem => ?_⟩
    exact h f name value (List.mem_cons_of_mem _ hmem)
  | case6 word words hsome hnone ih =>
    exact ih fun f name value hmem => h f name value (List.mem_cons_of_mem _ hmem)

end

/-! ### Command lines -/

theorem applyUses_of_readFlags {σ : Type} {flags : List (Flag σ)} {start : σ} {words : List Text}
    {r : Reading σ} (h : readFlags flags start words = .ok r) :
    ∃ classified, classifyAll flags words = .ok classified ∧
      applyUses (flagUses flags classified) start = .ok r.arguments := by
  unfold readFlags at h
  obtain ⟨classified, hclassified, h⟩ := bind_eq_ok.mp h
  obtain ⟨r', htake, h⟩ := bind_eq_ok.mp h
  split at h
  · cases h
    exact ⟨classified, hclassified, applyUses_of_takeWords htake⟩
  · cases h

theorem append_of_splitAtCommand {argv before rest : List Text}
    (h : splitAtCommand argv = .ok (before, rest)) : before ++ rest = argv := by
  unfold splitAtCommand at h
  obtain ⟨leading, -, h⟩ := bind_eq_ok.mp h
  obtain ⟨-, -, h⟩ := bind_eq_ok.mp h
  have hsplit := Except.ok.inj h
  rw [List.splitAt_eq] at hsplit
  obtain ⟨rfl, rfl⟩ := Prod.mk.inj hsplit
  exact List.take_append_drop _ _

theorem readFlags_of_readCommand {name : Text} {words leftover : List Text} {a : GenerateArguments}
    (h : readCommand name words = .ok (.generate a, leftover)) :
    ∃ r, readFlags generateFlags {} words = .ok r ∧ r.arguments = a := by
  unfold readCommand at h
  dsimp only at h
  split at h
  · split at h
    · rename_i r hr
      cases h
      exact ⟨r, hr, rfl⟩
    · cases h
  · split at h
    · split at h <;> cases h
    · split at h
      · split at h <;> cases h
      · cases h

/-- A command line for a snippet is the name of the command with words whose flags come to its
arguments. -/
theorem exists_words_of_parse {argv : List Text} {a : GenerateArguments}
    (h : parse argv = .ok (.generate a)) : ∃ name words, argv = name :: words ∧
      ∃ classified, classifyAll generateFlags words = .ok classified ∧
        applyUses (flagUses generateFlags classified) {} = .ok a := by
  unfold parse at h
  obtain ⟨⟨before, rest⟩, hsplit, h⟩ := bind_eq_ok.mp h
  have hargv := append_of_splitAtCommand (mapError_eq_ok.mp hsplit)
  dsimp only at h
  split at h
  · cases h
  · cases h
  · rename_i name words _
    obtain ⟨⟨command, leftover⟩, hcommand, h⟩ := bind_eq_ok.mp h
    dsimp only at h
    split at h
    · rename_i hnone
      cases h
      obtain ⟨rfl, -⟩ := List.append_eq_nil_iff.mp hnone
      obtain ⟨r, hr, rfl⟩ := readFlags_of_readCommand hcommand
      exact ⟨name, words, hargv.symm, applyUses_of_readFlags hr⟩
    · cases h

end HttpSnippet.CommandLine
