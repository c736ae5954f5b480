import Autogen.Classification
import Autogen.Proofs.FileSystem.Canonical

/-!
# Classification of sources

Sources are classified by their canonical paths, which growth leaves the same, and what earlier
plans generate has no part in it.

## Main statements

* `Classifier.classify_filter` — what an earlier plan generates has no part in the classification.
* `Classifier.classify_grows` — sources are classified the same way in a tree that has grown.
* `Classifier.exists_of_classify_eq_error` — the one fault that a classification has.
-/

namespace Autogen

open FileSystem

variable [Environment]

variable {fs fs' : FileSystem}

namespace Classifier

variable {c : Classifier} {sources : List SourceFile}

/-- What an earlier plan generates has no part in the classification. -/
theorem foldlM_look_filter (t : Tally) :
    (sources.filter fun s => !s.autogenOutput).foldlM (c.look fs) t =
      sources.foldlM (c.look fs) t := by
  induction sources generalizing t with
  | nil => rfl
  | cons s rest ih =>
    cases houtput : s.autogenOutput with
    | true =>
      have hlook : c.look fs t s = .ok t := by
        rw [look, if_pos (by simp [houtput])]
      rw [List.filter_cons_of_neg (by simp [houtput]), List.foldlM_cons, hlook]
      exact ih t
    | false =>
      rw [List.filter_cons_of_pos (by simp [houtput]), List.foldlM_cons, List.foldlM_cons]
      exact bind_congr ih

theorem classify_filter :
    c.classify fs (sources.filter fun s => !s.autogenOutput) = c.classify fs sources := by
  rw [classify, classify, foldlM_look_filter]

/-- Sources are classified the same way in a tree that has grown. -/
theorem classify_grows (hgrows : fs.Grows fs') (htree : fs.IsTree)
    (hholds : ∀ s ∈ sources, fs.Holds (Path.ofString s.path)) :
    Follows fs.LinkLoop (c.classify fs sources) (c.classify fs' sources) := by
  refine Follows.bind (Follows.foldlM fun s hs t => ?_) fun tally _ => .refl _
  unfold look
  split
  · exact .refl _
  · have hpath :
        Follows fs.LinkLoop (canonicalPath fs s.path none) (canonicalPath fs' s.path none) :=
      canonicalPath_grows hgrows htree (hholds s hs)
    rcases hpath with heq | ⟨fault, hloop, heq⟩
    · rw [heq]
      exact .refl _
    · rw [heq]
      exact .inr ⟨fault, hloop, rfl⟩

/-- Where sources cannot be classified, an input has no canonical path. -/
theorem exists_of_classify_eq_error {fault : PathFault} (h : c.classify fs sources = .error fault) :
    ∃ s ∈ sources, s.autogenOutput = false ∧ canonicalPath fs s.path none = .error fault := by
  have hfold : sources.foldlM (c.look fs) {} = .error fault := by
    rcases bind_eq_error.mp h with hfold | ⟨tally, -, h⟩
    · exact hfold
    · cases h
  obtain ⟨s, hs, t, hlook⟩ := exists_of_foldlM_eq_error hfold
  unfold look at hlook
  split at hlook
  · cases hlook
  · rename_i hwanted
    split at hlook
    · cases hlook
    · rename_i other hpath
      obtain rfl := Except.error.inj hlook
      exact ⟨s, hs, by simp_all, hpath⟩

end Classifier

end Autogen
