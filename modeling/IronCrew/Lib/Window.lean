import Mathlib.Data.List.Infix

/-!
# Buffers that drop their oldest entries

A bounded buffer that gives up entries from the front until the rest fits holds the longest suffix
that fits, of its own content and, when what fits is closed under taking parts, of everything that
was ever put into it.
-/

namespace Window

variable {α : Type}

def evict (fits : List α → Prop) [DecidablePred fits] : List α → List α
  | [] => []
  | first :: rest => if fits (first :: rest) then first :: rest else evict fits rest

structure IsLongest (fits : List α → Prop) (window entries : List α) : Prop where
  suffix : window <:+ entries
  fit : fits window
  longest : ∀ other, other <:+ entries → fits other → other <:+ window

def Closed (fits : List α → Prop) : Prop :=
  ∀ part whole, part.Sublist whole → fits whole → fits part

section Evict

variable {fits : List α → Prop} [DecidablePred fits]

theorem evict_of_fits {entries : List α} (hfits : fits entries) : evict fits entries = entries := by
  cases entries with
  | nil => rfl
  | cons first rest => rw [evict, if_pos hfits]

theorem evict_isLongest (hnil : fits []) (entries : List α) :
    IsLongest fits (evict fits entries) entries := by
  induction entries with
  | nil => exact ⟨List.suffix_rfl, hnil, fun other hother _ => hother⟩
  | cons first rest ih =>
    rw [evict]
    by_cases hfits : fits (first :: rest)
    · rw [if_pos hfits]
      exact ⟨List.suffix_rfl, hfits, fun other hother _ => hother⟩
    · rw [if_neg hfits]
      refine ⟨ih.suffix.trans (List.suffix_cons first rest), ih.fit, ?_⟩
      intro other hother hfit
      obtain rfl | hrest := List.suffix_cons_iff.mp hother
      · exact absurd hfit hfits
      · exact ih.longest other hrest hfit

end Evict

theorem IsLongest.snoc {fits : List α → Prop} (hclosed : Closed fits)
    {window next entries : List α} {entry : α} (hwindow : IsLongest fits window entries)
    (hnext : IsLongest fits next (window ++ [entry])) : IsLongest fits next (entries ++ [entry]) := by
  have hgrown : window ++ [entry] <:+ entries ++ [entry] := by
    obtain ⟨before, hbefore⟩ := hwindow.suffix
    exact ⟨before, by rw [← hbefore, List.append_assoc]⟩
  refine ⟨hnext.suffix.trans hgrown, hnext.fit, ?_⟩
  intro other hother hfit
  apply hnext.longest other ?_ hfit
  obtain rfl | ⟨init, last, rfl⟩ := List.eq_nil_or_concat other
  · exact List.nil_suffix
  · rw [List.concat_eq_append] at hother hfit ⊢
    obtain ⟨before, hbefore⟩ := hother
    have hsplit : before ++ init ++ [last] = entries ++ [entry] := by simpa using hbefore
    obtain ⟨hentries, hlast⟩ := List.append_inj' hsplit rfl
    have hinit : init <:+ window := by
      apply hwindow.longest init ⟨before, hentries⟩
      exact hclosed _ _ (List.sublist_append_left init _) hfit
    obtain ⟨rest, hrest⟩ := hinit
    exact ⟨rest, by rw [← hrest, List.append_assoc, hlast]⟩

theorem evict_append {fits : List α → Prop} [DecidablePred fits] {entry : α} (hentry : fits [entry])
    (entries : List α) :
    evict (fun window => fits (window ++ [entry])) entries ++ [entry] =
      evict fits (entries ++ [entry]) := by
  induction entries with
  | nil => rw [List.nil_append, evict_of_fits hentry, evict, List.nil_append]
  | cons first rest ih =>
    rw [evict, List.cons_append, evict]
    by_cases hfits : fits (first :: (rest ++ [entry]))
    · rw [if_pos hfits, if_pos (by simpa using hfits)]
      rfl
    · rw [if_neg hfits, if_neg (by simpa using hfits), ih]

end Window
