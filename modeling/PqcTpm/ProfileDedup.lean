import PqcTpm.RuntimeProfiles
import PqcTpm.Lib.CStrings
import Mathlib.Data.List.TakeWhile

/-!
# Items that are given twice

`RuntimeProfileDedupStrItems`, in place on a buffer with temporary terminators, and what it leaves of a list.
-/
namespace PqcTpm
open TextFields CStrings

namespace ProfileDedup

/-- The inner loop of `RuntimeProfileDedupStrItems`: whether an item behind `ncomma` is the one at `pos` again. -/
def dedupSearch (b : Buffer Char) (pos slen : Nat) (exp : Char) : Nat → Nat → Option Bool
  | 0, _ => none
  | fuel + 1, ncomma => do
    match ← strstr b (ncomma + 1) pos with
    | none => return false
    | some dup =>
      let before ← b[dup - 1]?
      let after ← b[dup + slen]?
      if (before = some ',' ∨ before = none) ∧ (after = some exp ∨ after = none) then return true
      else
        match ← index b dup ',' with
        | none => return false
        | some ncomma => dedupSearch b pos slen exp fuel ncomma

/-- The outer loop of `RuntimeProfileDedupStrItems`. -/
def dedupLoop : Nat → Buffer Char → Nat → Option (Buffer Char)
  | 0, _, _ => none
  | fuel + 1, b, pos => do
    match ← index b pos ',' with
    | none => return b
    | some comma =>
      -- temporarily terminate the string here
      let b₁ ← write b comma none
      match ← index b₁ pos '=' with
      | some equals =>
        let b₂ ← write b₁ equals none
        if ← dedupSearch b₂ pos (equals - pos) '=' b₂.length comma then
          dedupLoop fuel (← memmove b₂ pos (comma + 1) ((← strlen b₂ (comma + 1)) + 1)) pos
        else dedupLoop fuel (← write (← write b₂ comma (some ',')) equals (some '=')) (comma + 1)
      | none =>
        if ← dedupSearch b₁ pos (comma - pos) ',' b₁.length comma then
          dedupLoop fuel (← memmove b₁ pos (comma + 1) ((← strlen b₁ (comma + 1)) + 1)) pos
        else dedupLoop fuel (← write b₁ comma (some ',')) (comma + 1)

/-- `RuntimeProfileDedupStrItems`; every turn takes a comma off what is ahead. -/
def runtimeProfileDedupStrItems (input : Buffer Char) : Option (Buffer Char) :=
  dedupLoop (input.length + 1) input 0

/-! ## The search -/

/-- An item behind has the key and the character that is expected there, or the last item is the bare key. -/
def found (key : CString) (exp : Char) (ys : List CString) : Bool :=
  ys.any (fun y => (key ++ [exp]).isPrefixOf (y ++ [','])) || ys.getLast? == some key

section Search
variable {b P J : Buffer Char} {sep : Option Char} {key : CString} {exp : Char} {pos : Nat}

/-- A turn of the search that meets the key. -/
theorem search_hit (exp : Char) {u v : CString} (tail : CString) (fuel : Nat)
    (hb : b = P ++ sep :: (text (u ++ key ++ v ++ tail) ++ none :: J))
    (hocc : occurrence key (u ++ key ++ v ++ tail) = some u.length) (hkey : chars (b.drop pos) = some key) :
    dedupSearch b pos key.length exp (fuel + 1) P.length =
      if ((if u = [] then sep else u.getLast?) = some ',' ∨ (if u = [] then sep else u.getLast?) = none) ∧
        ((v ++ tail).head? = some exp ∨ (v ++ tail).head? = none) then some true
      else
        match ((key ++ v ++ tail).findIdx? (· = ',')).map (P.length + 1 + u.length + ·) with
        | none => some false
        | some ncomma => dedupSearch b pos key.length exp fuel ncomma := by
  have hstart : chars (b.drop (P.length + 1)) = some (u ++ key ++ v ++ tail) := by
    have hsplit : b = (P ++ [sep]) ++ (text (u ++ key ++ v ++ tail) ++ none :: J) := by
      rw [hb, List.append_assoc P [sep], List.singleton_append]
    rw [hsplit]
    exact chars_drop (by rw [List.length_append]; rfl) _ _
  have hfind : strstr b (P.length + 1) pos = some (some (P.length + 1 + u.length)) := by
    unfold strstr
    rw [hstart, hkey, Option.bind_some, Option.map_some, hocc]
    rfl
  have hbefore : b[P.length + 1 + u.length - 1]? = some (if u = [] then sep else u.getLast?) := by
    rcases List.eq_nil_or_concat u with hnil | ⟨w, c, hw⟩
    · rw [if_pos hnil, hb, hnil]
      exact getElem?_behind rfl _ _
    · rw [List.concat_eq_append] at hw
      have hsplit : b = (P ++ sep :: text w) ++ some c :: (text (key ++ v ++ tail) ++ none :: J) := by
        rw [hb, hw]
        simp only [text, List.map_append, List.append_assoc, List.cons_append, List.map_cons,
          List.nil_append]
      have hlen : (P ++ sep :: text w).length = P.length + 1 + u.length - 1 := by
        rw [hw, List.length_append, List.length_cons, text_length, List.length_append, List.length_singleton]
        omega
      rw [hsplit, getElem?_behind hlen, hw, if_neg (List.append_ne_nil_of_right_ne_nil _ (List.cons_ne_nil _ _)),
        List.getLast?_concat]
  have hafter : b[P.length + 1 + u.length + key.length]? = some (v ++ tail).head? := by
    have hlen : (P ++ sep :: (text u ++ text key)).length = P.length + 1 + u.length + key.length := by
      rw [List.length_append, List.length_cons, List.length_append, text_length, text_length]
      omega
    have hsplit : b = (P ++ sep :: (text u ++ text key)) ++ (text (v ++ tail) ++ none :: J) := by
      rw [hb]
      simp only [text, List.map_append, List.append_assoc, List.cons_append]
    rw [hsplit]
    cases hvt : v ++ tail with
    | nil => exact getElem?_behind hlen _ _
    | cons c t => exact getElem?_behind hlen _ _
  have hcomma : index b (P.length + 1 + u.length) ',' =
      some (((key ++ v ++ tail).findIdx? (· = ',')).map (P.length + 1 + u.length + ·)) := by
    have hlen : (P ++ sep :: text u).length = P.length + 1 + u.length := by
      rw [List.length_append, List.length_cons, text_length]
      omega
    have hsplit : b = (P ++ sep :: text u) ++ (text (key ++ v ++ tail) ++ none :: J) := by
      rw [hb]
      simp only [text, List.map_append, List.append_assoc, List.cons_append]
    rw [hsplit]
    exact index_spec hlen _ _ _
  rw [dedupSearch, hfind]
  simp only [bind, Option.bind, pure, hbefore, hafter, hcomma]

theorem search_absent {y : CString} {fuel slen : Nat} (hb : b = P ++ sep :: (text y ++ none :: J))
    (hocc : occurrence key y = none) (hkey : chars (b.drop pos) = some key) :
    dedupSearch b pos slen exp (fuel + 1) P.length = some false := by
  have hstart : chars (b.drop (P.length + 1)) = some y := by
    have hsplit : b = (P ++ [sep]) ++ (text y ++ none :: J) := by
      rw [hb, List.append_assoc P [sep], List.singleton_append]
    rw [hsplit]
    exact chars_drop (by rw [List.length_append]; rfl) _ _
  have hfind : strstr b (P.length + 1) pos = some none := by
    unfold strstr
    rw [hstart, hkey, Option.bind_some, Option.map_some, hocc]
    rfl
  rw [dedupSearch, hfind]
  rfl

/-- An item without the key in it is passed over. -/
theorem search_miss {y rest : CString} {fuel slen : Nat}
    (hb : b = P ++ sep :: (text (y ++ ',' :: rest) ++ none :: J)) (hocc : occurrence key y = none)
    (hcomma : ',' ∉ key) (hkey : chars (b.drop pos) = some key) :
    dedupSearch b pos slen exp (fuel + 1) P.length = dedupSearch b pos slen exp (fuel + 1) (P.length + 1 + y.length) := by
  have hstart : chars (b.drop (P.length + 1)) = some (y ++ ',' :: rest) := by
    have hsplit : b = (P ++ [sep]) ++ (text (y ++ ',' :: rest) ++ none :: J) := by
      rw [hb, List.append_assoc P [sep], List.singleton_append]
    rw [hsplit]
    exact chars_drop (by rw [List.length_append]; rfl) _ _
  have hrest : chars (b.drop (P.length + 1 + y.length + 1)) = some rest := by
    have hsplit : b = (P ++ sep :: (text y ++ [some ','])) ++ (text rest ++ none :: J) := by
      rw [hb]
      simp only [text, List.map_append, List.append_assoc, List.cons_append, List.map_cons, List.nil_append]
    rw [hsplit]
    refine chars_drop ?_ _ _
    rw [List.length_append, List.length_cons, List.length_append, text_length, List.length_singleton]
    omega
  have hsame : strstr b (P.length + 1) pos = strstr b (P.length + 1 + y.length + 1) pos := by
    have hplace : (P.length + 1 + ·) ∘ (· + (y.length + 1)) = (P.length + 1 + y.length + 1 + ·) := by
      funext d
      show P.length + 1 + (d + (y.length + 1)) = _
      omega
    unfold strstr
    rw [hstart, hrest, hkey, Option.bind_some, Option.bind_some, Option.map_some, Option.map_some,
      occurrence_stop hcomma, hocc]
    simp only
    rw [Option.map_map, hplace]
  rw [dedupSearch, dedupSearch, hsame]

theorem prefix_test (v : CString) :
    (key ++ [exp]).isPrefixOf (key ++ v ++ [',']) = true ↔ (v ++ [',']).head? = some exp := by
  rw [List.isPrefixOf_iff_prefix, List.append_assoc, List.prefix_append_right_inj]
  cases v ++ [','] with
  | nil => exact ⟨fun h => absurd (List.prefix_nil.mp h) (List.cons_ne_nil _ _), nofun⟩
  | cons c t =>
      rw [List.cons_prefix_cons, List.head?_cons, Option.some.injEq]
      exact ⟨fun h => h.1.symm, fun h => ⟨h.symm, List.nil_prefix⟩⟩

theorem test_false (exp : Char) {y : CString} (hcomma : ',' ∉ key) (h : key.isPrefixOf y = false) :
    (key ++ [exp]).isPrefixOf (y ++ [',']) = false ∧ (y == key) = false := by
  constructor
  · apply Bool.eq_false_iff.mpr
    intro htest
    have hprefix : key.isPrefixOf (y ++ [',']) = true :=
      List.isPrefixOf_iff_prefix.mpr
        (List.prefix_append key [exp] |>.trans (List.isPrefixOf_iff_prefix.mp htest))
    rw [isPrefixOf_stop hcomma, h] at hprefix
    exact Bool.false_ne_true hprefix
  · apply Bool.eq_false_iff.mpr
    intro heq
    rw [eq_of_beq heq, List.isPrefixOf_iff_prefix.mpr (List.prefix_refl key)] at h
    exact absurd h Bool.noConfusion

theorem found_cons (y y' : CString) (ys : List CString) :
    found key exp (y :: y' :: ys) = ((key ++ [exp]).isPrefixOf (y ++ [',']) || found key exp (y' :: ys)) := by
  unfold found
  rw [List.any_cons, List.getLast?_cons_cons, Bool.or_assoc]

theorem found_singleton (y : CString) :
    found key exp [y] = ((key ++ [exp]).isPrefixOf (y ++ [',']) || y == key) := by
  unfold found
  rw [List.any_cons, List.any_nil, Bool.or_false]
  rfl

theorem before_false {u : CString} (hu : u ≠ []) (hcomma : ',' ∉ u) :
    ¬((if u = [] then sep else u.getLast?) = some ',' ∨ (if u = [] then sep else u.getLast?) = none) := by
  rw [if_neg hu]
  rintro (h | h)
  · exact hcomma (List.mem_of_getLast? h)
  · exact hu (List.getLast?_eq_none_iff.mp h)

theorem search_spec {ys : List CString} (hys : ys ≠ []) (hitems : ∀ y ∈ ys, ',' ∉ y) (hcomma : ',' ∉ key)
    (hkey : chars (b.drop pos) = some key) {fuel : Nat}
    (hb : b = P ++ sep :: (text ([','].intercalate ys) ++ none :: J)) (hsep : sep = some ',' ∨ sep = none)
    (hfuel : ys.length ≤ fuel) : dedupSearch b pos key.length exp fuel P.length = some (found key exp ys) := by
  induction ys generalizing P sep fuel with
  | nil => exact absurd rfl hys
  | cons y ys ih =>
      obtain ⟨n, rfl⟩ : ∃ n, fuel = n + 1 :=
        Nat.exists_eq_add_one.mpr (Nat.lt_of_lt_of_le (Nat.succ_pos _) hfuel)
      have hy : ',' ∉ y := hitems y List.mem_cons_self
      cases ys with
      | nil =>
          rw [List.intercalate_singleton] at hb
          rw [found_singleton]
          cases hocc : occurrence key y with
          | none =>
              obtain ⟨htest, heq⟩ := test_false exp hcomma (occurrence_none hocc)
              rw [search_absent hb hocc hkey, htest, heq]
              rfl
          | some d =>
              obtain ⟨u, v, rfl, rfl, hfirst⟩ := occurrence_some hocc
              have hhit := search_hit exp [] n (by rw [List.append_nil]; exact hb) (by rw [List.append_nil]; exact hocc) hkey
              have hend : (key ++ v ++ []).findIdx? (· = ',') = none := by
                apply findIdx?_absent
                rw [List.append_nil]
                exact fun hmem => hy (by rw [List.append_assoc]; exact List.mem_append_right u hmem)
              rw [hhit, hend, List.append_nil]
              by_cases hu : u = []
              · subst hu
                rw [if_pos rfl, List.nil_append]
                cases v with
                | nil =>
                    rw [if_pos ⟨hsep, .inr rfl⟩, List.append_nil, beq_self_eq_true, Bool.or_true]
                | cons c v =>
                    have hne : (key ++ c :: v == key) = false := by
                      apply beq_eq_false_iff_ne.mpr
                      intro heq
                      exact absurd (List.append_right_eq_self.mp heq) (List.cons_ne_nil c v)
                    rw [hne, Bool.or_false]
                    by_cases hc : c = exp
                    · rw [if_pos ⟨hsep, .inl (congrArg some hc)⟩, (prefix_test (c :: v)).mpr (congrArg some hc)]
                    · have htest : (key ++ [exp]).isPrefixOf (key ++ c :: v ++ [',']) = false :=
                        Bool.eq_false_iff.mpr fun h => hc (Option.some.inj ((prefix_test _).mp h))
                      rw [htest, if_neg]
                      · rfl
                      · rintro ⟨-, h | h⟩
                        · exact hc (Option.some.inj h)
                        · cases h
              · obtain ⟨htest, heq⟩ := test_false exp hcomma (hfirst (List.length_pos_iff.mpr hu))
                have hcu : ',' ∉ u := fun hmem => hy (List.mem_append_left v (List.mem_append_left key hmem))
                rw [if_neg (fun h => before_false hu hcu h.1), htest, heq]
                rfl
      | cons y' ys =>
          rw [List.intercalate_cons_cons, List.append_assoc, List.singleton_append] at hb
          have hb' : b = (P ++ sep :: text y) ++ some ',' :: (text ([','].intercalate (y' :: ys)) ++ none :: J) := by
            rw [hb]
            simp only [text, List.map_append, List.append_assoc, List.cons_append, List.map_cons]
          have hlen : (P ++ sep :: text y).length = P.length + 1 + y.length := by
            rw [List.length_append, List.length_cons, text_length]
            omega
          have hrec : ∀ fuel, (y' :: ys).length ≤ fuel →
              dedupSearch b pos key.length exp fuel (P.length + 1 + y.length) = some (found key exp (y' :: ys)) := by
            intro fuel hfuel
            rw [← hlen]
            exact ih (List.cons_ne_nil _ _) (fun z hz => hitems z (List.mem_cons_of_mem y hz)) hb' (.inl rfl) hfuel
          rw [found_cons]
          cases hocc : occurrence key y with
          | none =>
              rw [search_miss hb hocc hcomma hkey, hrec (n + 1) (Nat.le_of_succ_le hfuel),
                (test_false exp hcomma (occurrence_none hocc)).1, Bool.false_or]
          | some d =>
              obtain ⟨u, v, rfl, rfl, hfirst⟩ := occurrence_some hocc
              have hocc' : occurrence key (u ++ key ++ v ++ ',' :: [','].intercalate (y' :: ys)) = some u.length := by
                rw [occurrence_stop hcomma, hocc]
              have hhit := search_hit exp (',' :: [','].intercalate (y' :: ys)) n hb hocc' hkey
              have hkv : ',' ∉ key ++ v := fun hmem => hy (by rw [List.append_assoc]; exact List.mem_append_right u hmem)
              have hplace : P.length + 1 + u.length + (key ++ v).length = P.length + 1 + (u ++ key ++ v).length := by
                simp only [List.length_append]
                omega
              rw [hhit, findIdx?_split hkv, Option.map_some, hplace]
              simp only
              rw [hrec n (Nat.le_of_succ_le_succ hfuel)]
              by_cases hu : u = []
              · subst hu
                rw [if_pos rfl, List.nil_append]
                have hhead : (v ++ ',' :: [','].intercalate (y' :: ys)).head? = (v ++ [',']).head? := by
                  cases v with
                  | nil => rfl
                  | cons c v => rfl
                have hsome : (v ++ [',']).head? ≠ none := by
                  cases v with
                  | nil => nofun
                  | cons c v => nofun
                rw [hhead]
                by_cases hexp : (v ++ [',']).head? = some exp
                · rw [if_pos ⟨hsep, .inl hexp⟩, (prefix_test v).mpr hexp, Bool.true_or]
                · have htest : (key ++ [exp]).isPrefixOf (key ++ v ++ [',']) = false :=
                    Bool.eq_false_iff.mpr fun h => hexp ((prefix_test v).mp h)
                  rw [htest, Bool.false_or, if_neg]
                  rintro ⟨-, h | h⟩
                  · exact hexp h
                  · exact hsome h
              · obtain ⟨htest, -⟩ := test_false exp hcomma (hfirst (List.length_pos_iff.mpr hu))
                have hcu : ',' ∉ u := fun hmem => hy (List.mem_append_left v (List.mem_append_left key hmem))
                rw [if_neg (fun h => before_false hu hcu h.1), htest, Bool.false_or]

end Search
/-! ## What is dropped -/

theorem comma_test {x y : CString} (hy : ',' ∉ y) : (x ++ [',']).isPrefixOf (y ++ [',']) = (y == x) := by
  apply Bool.eq_iff_iff.mpr
  rw [List.isPrefixOf_iff_prefix, List.prefix_concat_iff, beq_iff_eq]
  constructor
  · rintro (h | h)
    · exact (List.append_left_inj _).mp h.symm
    · exact absurd (h.subset (List.mem_append_right x List.mem_cons_self)) hy
  · rintro rfl
    exact .inl rfl

/-- The part before the first `=`. -/
theorem split_equals {x : CString} (h : '=' ∈ x) :
    ∃ v, x = x.takeWhile (· ≠ '=') ++ '=' :: v ∧ '=' ∉ x.takeWhile (· ≠ '=') := by
  have hsplit := List.takeWhile_append_dropWhile (p := (· ≠ '=')) (l := x)
  have hkey : '=' ∉ x.takeWhile (· ≠ '=') := fun hmem => by
    have hne := List.all_eq_true.mp List.all_takeWhile _ hmem
    exact absurd rfl (of_decide_eq_true hne)
  cases hdrop : x.dropWhile (· ≠ '=') with
  | nil =>
      rw [hdrop, List.append_nil] at hsplit
      rw [hsplit] at hkey
      exact absurd h hkey
  | cons c v =>
      have hc : c = '=' := by
        have hhead := List.head?_dropWhile_not (· ≠ '=') x
        rw [hdrop] at hhead
        simpa using hhead
      rw [hdrop, hc] at hsplit
      exact ⟨v, hsplit.symm, hkey⟩

theorem found_equals {x : CString} (hx : '=' ∈ x) (hcomma : ',' ∉ x) (ys : List CString) :
    found (x.takeWhile (· ≠ '=')) '=' ys = shadowed '=' x ys := by
  have hkey : ',' ∉ x.takeWhile (· ≠ '=') ++ ['='] := by
    intro h
    rcases List.mem_append.mp h with h | h
    · exact hcomma ((List.takeWhile_sublist _).subset h)
    · exact absurd (List.mem_singleton.mp h) (by decide)
  unfold found shadowed
  simp only [if_pos hx, isPrefixOf_stop hkey]

theorem found_plain {x : CString} (hx : '=' ∉ x) {ys : List CString} (hys : ∀ y ∈ ys, ',' ∉ y) :
    found x ',' ys = shadowed '=' x ys := by
  unfold found shadowed
  rw [if_neg hx]
  apply Bool.eq_iff_iff.mpr
  rw [Bool.or_eq_true, List.any_eq_true, List.contains_iff_mem]
  constructor
  · rintro (⟨y, hy, htest⟩ | hlast)
    · rw [comma_test (hys y hy), beq_iff_eq] at htest
      exact htest ▸ hy
    · exact List.mem_of_getLast? (beq_iff_eq.mp hlast)
  · intro h
    exact .inl ⟨x, h, by rw [comma_test (hys x h)]; exact beq_self_eq_true x⟩

theorem length_intercalate (ys : List CString) : ys.length ≤ ([','].intercalate ys).length + 1 := by
  induction ys with
  | nil => exact Nat.zero_le _
  | cons y ys ih =>
      cases ys with
      | nil => exact Nat.le_add_left _ _
      | cons z zs =>
          rw [List.intercalate_cons_cons, List.length_append, List.length_append, List.length_cons, List.length_singleton]
          omega

/-- A turn of the loop drops an item that comes again, or goes on to the next one. -/
theorem dedupLoop_turn {x : CString} {ys : List CString} (hys : ys ≠ []) (hx : ',' ∉ x) (hitems : ∀ y ∈ ys, ',' ∉ y)
    (done : CString) (J : Buffer Char) (n : Nat) :
    ∃ J', dedupLoop (n + 1) (text done ++ (text (x ++ ',' :: [','].intercalate ys) ++ none :: J)) done.length =
      if shadowed '=' x ys then
        dedupLoop n (text done ++ (text ([','].intercalate ys) ++ none :: J')) done.length
      else
        dedupLoop n (text (done ++ x ++ [',']) ++ (text ([','].intercalate ys) ++ none :: J))
          (done ++ x ++ [',']).length := by
  have hfuel := length_intercalate ys
  generalize hrest : [','].intercalate ys = rest at hfuel ⊢
  have hdone := text_length done
  have hcomma : (text done ++ text x).length = done.length + x.length := by
    rw [List.length_append, text_length, text_length]
  have hb : text done ++ (text (x ++ ',' :: rest) ++ none :: J) =
      (text done ++ text x) ++ some ',' :: (text rest ++ none :: J) := by
    simp only [text, List.map_append, List.append_assoc, List.cons_append, List.map_cons]
  have hkept : (done ++ x ++ [',']).length = done.length + x.length + 1 := by
    simp only [List.length_append, List.length_singleton]
  have hback : (text done ++ text x) ++ some ',' :: (text rest ++ none :: J) =
      text (done ++ x ++ [',']) ++ (text rest ++ none :: J) := by
    simp only [text, List.map_append, List.append_assoc, List.cons_append, List.map_cons, List.map_nil, List.nil_append]
  rw [dedupLoop, index_spec hdone, findIdx?_split hx, hb]
  simp only [Option.map_some, bind, Option.bind, write_behind hcomma]
  rw [List.append_assoc, index_spec hdone]
  by_cases heq : '=' ∈ x
  · obtain ⟨v, hxv, hkey⟩ := split_equals heq
    rw [← found_equals heq hx ys]
    generalize hk : x.takeWhile (· ≠ '=') = key at hxv hkey ⊢
    subst hxv
    have hkeyComma : ',' ∉ key := fun hmem => hx (List.mem_append_left _ hmem)
    have hequals : (text done ++ text key).length = done.length + key.length := by
      rw [List.length_append, text_length, text_length]
    have hlen : done.length + key.length - done.length = key.length := Nat.add_sub_cancel_left _ _
    have hplace : (text done ++ (text key ++ none :: text v)).length = done.length + (key ++ '=' :: v).length := by
      simp only [List.length_append, List.length_cons, text_length]
    have hb₁ : text done ++ (text (key ++ '=' :: v) ++ none :: (text rest ++ none :: J)) =
        (text done ++ text key) ++ some '=' :: (text v ++ none :: (text rest ++ none :: J)) := by
      simp only [text, List.map_append, List.append_assoc, List.cons_append, List.map_cons]
    have hb₂ : (text done ++ text key) ++ none :: (text v ++ none :: (text rest ++ none :: J)) =
        (text done ++ (text key ++ none :: text v)) ++ none :: (text rest ++ none :: J) := by
      simp only [List.append_assoc, List.cons_append]
    have hb₃ : (text done ++ (text key ++ none :: text v)) ++ some ',' :: (text rest ++ none :: J) =
        (text done ++ text key) ++ none :: (text v ++ some ',' :: (text rest ++ none :: J)) := by
      simp only [List.append_assoc, List.cons_append]
    have hb₄ : (text done ++ text key) ++ some '=' :: (text v ++ some ',' :: (text rest ++ none :: J)) =
        (text done ++ text (key ++ '=' :: v)) ++ some ',' :: (text rest ++ none :: J) := by
      simp only [text, List.map_append, List.append_assoc, List.cons_append, List.map_cons]
    have hwrite := write_behind hequals (some '=') none (text v ++ none :: (text rest ++ none :: J))
    rw [← hb₁, hb₂] at hwrite
    have hneedle : chars (((text done ++ (text key ++ none :: text v)) ++ none :: (text rest ++ none :: J)).drop
        done.length) = some key := by
      rw [← hb₂, List.append_assoc]
      exact chars_drop hdone key _
    have hroom : ys.length ≤ ((text done ++ (text key ++ none :: text v)) ++ none :: (text rest ++ none :: J)).length := by
      simp only [List.length_append, List.length_cons, text_length]
      omega
    have hsearch : dedupSearch ((text done ++ (text key ++ none :: text v)) ++ none :: (text rest ++ none :: J))
        done.length key.length '='
        ((text done ++ (text key ++ none :: text v)) ++ none :: (text rest ++ none :: J)).length
        (done.length + (key ++ '=' :: v).length) = some (found key '=' ys) := by
      rw [← hplace]
      exact search_spec hys hitems hkeyComma hneedle (by rw [hrest]) (.inr rfl) hroom
    have hsplit : (text done ++ (text key ++ none :: text v)) ++ none :: (text rest ++ none :: J) =
        (text done ++ (text key ++ none :: text v) ++ [none]) ++ (text rest ++ none :: J) := by
      simp only [List.append_assoc, List.cons_append, List.nil_append]
    have hstrlen : strlen ((text done ++ (text key ++ none :: text v)) ++ none :: (text rest ++ none :: J))
        (done.length + (key ++ '=' :: v).length + 1) = some rest.length := by
      rw [hsplit]
      exact strlen_behind (by rw [List.length_append, hplace]; rfl) rest J
    obtain ⟨J', hmove⟩ := memmove_close hdone (text key ++ none :: text v ++ [none])
      (show (text done).length + (text key ++ none :: text v ++ [none]).length =
          done.length + (key ++ '=' :: v).length + 1 by
        rw [← hplace]; simp only [List.length_append, List.length_cons, List.length_nil]; omega) rest J
    have hmoved : text done ++ ((text key ++ none :: text v ++ [none]) ++ (text rest ++ none :: J)) =
        (text done ++ (text key ++ none :: text v)) ++ none :: (text rest ++ none :: J) := by
      simp only [List.append_assoc, List.cons_append, List.nil_append]
    rw [hmoved] at hmove
    have hrestore := write_behind hplace none (some ',') (text rest ++ none :: J)
    have hrestore' := write_behind hequals none (some '=') (text v ++ some ',' :: (text rest ++ none :: J))
    rw [hb₄, hback] at hrestore'
    refine ⟨J', ?_⟩
    simp only [findIdx?_split hkey, Option.map_some, hwrite, hlen, hsearch, hstrlen, hmove, hrestore, hb₃, hrestore',
      hkept]
  · rw [findIdx?_absent heq, ← found_plain heq hitems]
    have hlen : done.length + x.length - done.length = x.length := Nat.add_sub_cancel_left _ _
    have hbuf : text done ++ (text x ++ none :: (text rest ++ none :: J)) =
        (text done ++ text x) ++ none :: (text ([','].intercalate ys) ++ none :: J) := by
      rw [hrest, List.append_assoc]
    have hroom : ys.length ≤ (text done ++ (text x ++ none :: (text rest ++ none :: J))).length := by
      simp only [List.length_append, List.length_cons, text_length]
      omega
    have hsearch : dedupSearch (text done ++ (text x ++ none :: (text rest ++ none :: J))) done.length x.length ','
        (text done ++ (text x ++ none :: (text rest ++ none :: J))).length (done.length + x.length) =
          some (found x ',' ys) := by
      rw [← hcomma]
      exact search_spec hys hitems hx (chars_drop hdone x _) hbuf (.inr rfl) hroom
    have hstrlen : strlen (text done ++ (text x ++ none :: (text rest ++ none :: J))) (done.length + x.length + 1) =
        some rest.length := by
      have hsplit : text done ++ (text x ++ none :: (text rest ++ none :: J)) =
          (text done ++ text x ++ [none]) ++ (text rest ++ none :: J) := by
        simp only [List.append_assoc, List.cons_append, List.nil_append]
      rw [hsplit]
      exact strlen_behind (by rw [List.length_append, hcomma]; rfl) rest J
    obtain ⟨J', hmove⟩ := memmove_close hdone (text x ++ [none])
      (show (text done).length + (text x ++ [none]).length = done.length + x.length + 1 by
        rw [List.length_append, text_length, text_length]; rfl) rest J
    rw [List.append_assoc, List.singleton_append] at hmove
    refine ⟨J', ?_⟩
    simp only [Option.map_none, hlen, hsearch, hstrlen, hmove, hback, hkept]

theorem dedupLoop_spec {xs : List CString} (hxs : xs ≠ []) (hitems : ∀ x ∈ xs, ',' ∉ x) (done : CString)
    (J : Buffer Char) {fuel : Nat} (hfuel : xs.length ≤ fuel) :
    ∃ J', dedupLoop fuel (text done ++ (text ([','].intercalate xs) ++ none :: J)) done.length =
      some (text (done ++ [','].intercalate (keepLast '=' xs)) ++ none :: J') := by
  induction xs generalizing done J fuel with
  | nil => exact absurd rfl hxs
  | cons x ys ih =>
      obtain ⟨n, rfl⟩ : ∃ n, fuel = n + 1 := Nat.exists_eq_add_one.mpr (Nat.lt_of_lt_of_le (Nat.succ_pos _) hfuel)
      have hx : ',' ∉ x := hitems x List.mem_cons_self
      cases ys with
      | nil =>
          refine ⟨J, ?_⟩
          rw [dedupLoop, List.intercalate_singleton, index_spec (text_length done), findIdx?_absent hx]
          simp only [keepLast, shadowed_nil, Bool.false_eq_true, if_false, List.intercalate_singleton, text_append,
            List.append_assoc]
          rfl
      | cons y ys =>
          have hys : ∀ z ∈ y :: ys, ',' ∉ z := fun z hz => hitems z (List.mem_cons_of_mem x hz)
          have hrec := ih (List.cons_ne_nil y ys) hys
          have hlen : (y :: ys).length ≤ n := Nat.le_of_succ_le_succ hfuel
          rw [List.intercalate_cons_cons, List.append_assoc, List.singleton_append]
          obtain ⟨J', hturn⟩ := dedupLoop_turn (List.cons_ne_nil y ys) hx hys done J n
          rw [hturn, keepLast]
          split
          · exact hrec done J' hlen
          · obtain ⟨J'', hkeep⟩ := hrec (done ++ x ++ [',']) J hlen
            refine ⟨J'', hkeep.trans ?_⟩
            obtain ⟨z, zs, hz⟩ := List.exists_cons_of_ne_nil
              (show keepLast '=' (y :: ys) ≠ [] from keepLast_ne_nil (List.cons_ne_nil y ys))
            rw [hz, List.intercalate_cons_cons]
            simp only [List.append_assoc]

/-- The function ends inside of its buffer, and leaves the list without the items that a later one replaces. -/
theorem runtimeProfileDedupStrItems_eq (s : CString) :
    ∃ J, runtimeProfileDedupStrItems (text s ++ [none]) = some (text (dedupStrItems s) ++ none :: J) := by
  have hsplit : [','].intercalate (s.splitOn ',') = s := List.intercalate_splitOn ','
  have hitems : ∀ x ∈ s.splitOn ',', ',' ∉ x := fun x hx => not_mem_of_mem_splitOn hx
  have hfuel : (s.splitOn ',').length ≤ (text s ++ [none]).length + 1 := by
    have hlen := length_intercalate (s.splitOn ',')
    rw [hsplit] at hlen
    rw [List.length_append, text_length, List.length_singleton]
    omega
  obtain ⟨J', h⟩ := dedupLoop_spec (List.splitOn_ne_nil ',' s) hitems [] [] hfuel
  rw [hsplit] at h
  exact ⟨J', h⟩

/-! ## One rule for all keys -/

/-- The key of an item: what stands before `=`, else the item. -/
def keyOf (x : CString) : CString := x.takeWhile (· ≠ '=')

/-- The items without a later item of the same key. -/
def keepByKey : List CString → List CString
  | [] => []
  | x :: ys => if ys.any (keyOf · = keyOf x) then keepByKey ys else x :: keepByKey ys

theorem keyOf_plain {x : CString} (h : '=' ∉ x) : keyOf x = x := by
  have hall : ∀ c ∈ x, decide (c ≠ '=') = true := by
    intro c hc
    exact decide_eq_true fun heq => h (heq ▸ hc)
  exact List.takeWhile_eq_self_iff.mpr hall

theorem keyOf_value {k : CString} (hk : '=' ∉ k) (v : CString) : keyOf (k ++ '=' :: v) = k := by
  have hall : ∀ c ∈ k, decide (c ≠ '=') = true := by
    intro c hc
    exact decide_eq_true fun heq => hk (heq ▸ hc)
  unfold keyOf
  rw [List.takeWhile_append_of_pos hall, List.takeWhile_cons_of_neg (by simp), List.append_nil]

theorem not_mem_keyOf (x : CString) : '=' ∉ keyOf x := by
  intro h
  have hne := List.all_eq_true.mp List.all_takeWhile _ h
  exact absurd rfl (of_decide_eq_true hne)

theorem prefix_iff_keyOf {k y : CString} (hk : '=' ∉ k) :
    (k ++ ['=']).isPrefixOf y = true ↔ '=' ∈ y ∧ keyOf y = k := by
  rw [List.isPrefixOf_iff_prefix]
  constructor
  · rintro ⟨v, rfl⟩
    rw [List.append_assoc, List.singleton_append]
    exact ⟨List.mem_append_right k List.mem_cons_self, keyOf_value hk v⟩
  · rintro ⟨hmem, rfl⟩
    obtain ⟨v, hv, -⟩ := split_equals hmem
    refine ⟨v, ?_⟩
    rw [List.append_assoc, List.singleton_append]
    exact hv.symm

/-- One of the later items has the key and is of the same kind, or the item gives a value to the key and the list ends
with the bare key. -/
def SeenAgain (x : CString) (ys : List CString) : Prop :=
  (∃ y ∈ ys, keyOf y = keyOf x ∧ ('=' ∈ y ↔ '=' ∈ x)) ∨ ('=' ∈ x ∧ ys.getLast? = some (keyOf x))

theorem shadowed_iff {x : CString} {ys : List CString} : shadowed '=' x ys = true ↔ SeenAgain x ys := by
  unfold shadowed SeenAgain
  by_cases hx : '=' ∈ x
  · simp only [if_pos hx]
    rw [Bool.or_eq_true, List.any_eq_true, beq_iff_eq]
    refine or_congr (exists_congr fun y => and_congr_right fun _ => ?_) (iff_and_self.mpr fun _ => hx)
    rw [show x.takeWhile (· ≠ '=') = keyOf x from rfl, prefix_iff_keyOf (not_mem_keyOf x), and_comm]
    exact and_congr_right fun _ => ⟨fun h => ⟨fun _ => hx, fun _ => h⟩, fun h => h.mpr hx⟩
  · rw [if_neg hx, List.contains_iff_mem]
    constructor
    · exact fun h => .inl ⟨x, h, rfl, Iff.rfl⟩
    · rintro (⟨y, hy, hkey, hkind⟩ | ⟨h, -⟩)
      · have hplain : '=' ∉ y := fun h => hx (hkind.mp h)
        rw [keyOf_plain hplain, keyOf_plain hx] at hkey
        exact hkey ▸ hy
      · exact absurd h hx

theorem SeenAgain.sameKey {x : CString} {ys : List CString} (h : SeenAgain x ys) : ∃ y ∈ ys, keyOf y = keyOf x := by
  rcases h with ⟨y, hy, hkey, -⟩ | ⟨-, hlast⟩
  · exact ⟨y, hy, hkey⟩
  · exact ⟨keyOf x, List.mem_of_getLast? hlast, keyOf_plain (not_mem_keyOf x)⟩

theorem any_sameKey {x : CString} {ys : List CString} :
    (ys.any (keyOf · = keyOf x)) = true ↔ ∃ y ∈ ys, keyOf y = keyOf x := by
  simp only [List.any_eq_true, decide_eq_true_eq]

theorem keepByKey_sublist (xs : List CString) : (keepByKey xs).Sublist (keepLast '=' xs) := by
  induction xs with
  | nil => exact List.Sublist.refl []
  | cons x ys ih =>
      rw [keepByKey, keepLast]
      by_cases hseen : shadowed '=' x ys = true
      · rw [if_pos hseen, if_pos (any_sameKey.mpr (shadowed_iff.mp hseen).sameKey)]
        exact ih
      · rw [if_neg hseen]
        split
        · exact ih.cons x
        · exact ih.cons_cons x

/-- An item with a later item of its key is seen again. -/
def SameKind (xs : List CString) : Prop :=
  ∀ front x ys, xs = front ++ x :: ys → (∃ y ∈ ys, keyOf y = keyOf x) → SeenAgain x ys

theorem keepLast_eq_keepByKey_iff (xs : List CString) : keepLast '=' xs = keepByKey xs ↔ SameKind xs := by
  induction xs with
  | nil =>
      refine ⟨fun _ front x ys h => ?_, fun _ => rfl⟩
      exact absurd h.symm (List.append_ne_nil_of_right_ne_nil front (List.cons_ne_nil x ys))
  | cons x ys ih =>
      have hcons : SameKind (x :: ys) ↔ ((∃ y ∈ ys, keyOf y = keyOf x) → SeenAgain x ys) ∧ SameKind ys := by
        constructor
        · exact fun h => ⟨h [] x ys rfl, fun front z zs heq => h (x :: front) z zs (congrArg (x :: ·) heq)⟩
        · rintro ⟨hhead, hrest⟩ front z zs heq
          cases front with
          | nil =>
              obtain ⟨rfl, rfl⟩ := List.cons.inj heq
              exact hhead
          | cons w front =>
              obtain ⟨-, hys⟩ := List.cons.inj heq
              exact hrest front z zs hys
      rw [hcons, ← ih, keepLast, keepByKey]
      by_cases hkey : ∃ y ∈ ys, keyOf y = keyOf x
      · rw [if_pos (any_sameKey.mpr hkey)]
        by_cases hseen : shadowed '=' x ys = true
        · rw [if_pos hseen]
          exact ⟨fun h => ⟨fun _ => shadowed_iff.mp hseen, h⟩, fun h => h.2⟩
        · rw [if_neg hseen]
          constructor
          · intro h
            -- the longer list cannot be a part of the shorter one
            have hlen := (keepByKey_sublist ys).length_le
            rw [← h, List.length_cons] at hlen
            omega
          · exact fun h => absurd (shadowed_iff.mpr (h.1 hkey)) hseen
      · have hnot : ¬shadowed '=' x ys = true := fun h => hkey (shadowed_iff.mp h).sameKey
        rw [if_neg (fun h => hkey (any_sameKey.mp h)), if_neg hnot, List.cons_inj_right]
        exact ⟨fun h => ⟨fun hk => absurd hk hkey, h⟩, fun h => h.2⟩

/-- The function ends with the items that have no later item of the same key, exactly when no item has only later items
of the other kind with its key, save for a bare key at the end. -/
theorem dedup_byKey_iff (s : CString) :
    (∃ b t, runtimeProfileDedupStrItems (text s ++ [none]) = some b ∧ chars b = some t ∧
      t.splitOn ',' = keepByKey (s.splitOn ',')) ↔ SameKind (s.splitOn ',') := by
  obtain ⟨J, hrun⟩ := runtimeProfileDedupStrItems_eq s
  rw [← keepLast_eq_keepByKey_iff]
  have hitems : (dedupStrItems s).splitOn ',' = keepLast '=' (s.splitOn ',') := splitOn_dedup ',' '=' s
  constructor
  · rintro ⟨b, t, hb, ht, hkeep⟩
    rw [hrun] at hb
    cases hb
    rw [chars_text] at ht
    cases ht
    rw [← hitems, hkeep]
  · intro h
    exact ⟨_, _, hrun, chars_text _ _, hitems.trans h⟩

/-- A value before the bare key is dropped at the end of a list and kept elsewhere. -/
theorem minSize_kept :
    runtimeProfileDedupStrItems (text "rsa-min-size=1024,rsa-min-size,aes".toList ++ [none]) =
        some (text "rsa-min-size=1024,rsa-min-size,aes".toList ++ [none]) ∧
      keepByKey ("rsa-min-size=1024,rsa-min-size,aes".toList.splitOn ',') = ["rsa-min-size".toList, "aes".toList] ∧
      (runtimeProfileDedupStrItems (text "rsa-min-size=1024,aes,rsa-min-size".toList ++ [none])).bind chars =
        some "aes,rsa-min-size".toList := by
  decide +kernel

end ProfileDedup
end PqcTpm
