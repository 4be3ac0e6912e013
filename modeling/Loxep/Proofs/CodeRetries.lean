import Mathlib.Data.List.Range
import Loxep.CodeRetries
import Loxep.Proofs.FingerprintComplete

/-!
# Codes that collide

A create never fails over a code that is taken, as long as the first codes it draws are unused: the
retry is of no use inside the transaction it is made in.
-/

namespace Loxep.CodeRetry

variable (violation : String → String) (draw : ℕ → String)

def Fresh (codes new : List String) : Prop := new.Nodup ∧ ∀ code ∈ new, code ∉ codes

def tried : ℕ → List String → ℕ → Option (List String)
  | 0, _, _ => some []
  | rows + 1, codes, n =>
    ((List.range 5).find? fun i => draw (n + i) ∉ codes).bind fun i =>
      (tried rows (codes ++ [draw (n + i)]) (n + i + 1)).map (draw (n + i) :: ·)

def NeverFails (codes : List String) (rows : ℕ)
    (outcome : Except CodeError (List String × List String)) : Prop :=
  (tried draw rows codes 0).isSome →
    ∃ new, outcome = .ok (new, codes ++ new) ∧ new.length = rows ∧ Fresh codes new

def firstDrawn (rows n : ℕ) : List String := (List.range' n rows).map draw

variable {violation draw}

theorem insertItem_eq (codes : List String) (n : ℕ) :
    insertItem violation draw (⟨codes, false⟩, n) =
      if draw n ∈ codes then (.error .transactionAborted, ⟨codes, true⟩, n + 2)
      else (.ok (draw n), ⟨codes ++ [draw n], false⟩, n + 1) := by
  by_cases h : draw n ∈ codes
  · simp [insertItem, withCodeRetry, retryCode, insertCode, h]
  · simp [insertItem, withCodeRetry, retryCode, insertCode, h]

theorem fresh_cons {codes new : List String} {code : String} :
    Fresh codes (code :: new) ↔ code ∉ codes ∧ Fresh (codes ++ [code]) new := by
  simp only [Fresh, List.nodup_cons, List.mem_cons, List.mem_append, not_or]
  grind

theorem insertItems_eq (rows : ℕ) (codes : List String) (n : ℕ) :
    (Fresh codes (firstDrawn draw rows n) → insertItems violation draw rows (⟨codes, false⟩, n) =
      (.ok (firstDrawn draw rows n), ⟨codes ++ firstDrawn draw rows n, false⟩, n + rows)) ∧
    (¬ Fresh codes (firstDrawn draw rows n) →
      (insertItems violation draw rows (⟨codes, false⟩, n)).1 = .error .transactionAborted) := by
  induction rows generalizing codes n with
  | zero => exact ⟨fun _ => by simp [insertItems, firstDrawn], fun h =>
      absurd ⟨List.nodup_nil, fun _ hc => nomatch hc⟩ h⟩
  | succ rows ih =>
    have hdrawn : firstDrawn draw (rows + 1) n = draw n :: firstDrawn draw rows (n + 1) := rfl
    obtain ⟨hok, herror⟩ := ih (codes ++ [draw n]) (n + 1)
    rw [hdrawn, fresh_cons, insertItems, insertItem_eq]
    by_cases h : draw n ∈ codes
    · exact ⟨fun hfresh => absurd h hfresh.1, fun _ => by rw [if_pos h]⟩
    · refine ⟨fun hfresh => ?_, fun hfresh => ?_⟩
      · simp only [if_neg h, hok hfresh.2, List.append_assoc, List.singleton_append]
        rw [add_right_comm, add_assoc]
      · have := herror fun hrest => hfresh ⟨h, hrest⟩
        simp only [if_neg h]
        split <;> simp_all

theorem neverFails_iff (codes : List String) (rows : ℕ) :
    NeverFails draw codes rows (inTransaction violation draw codes rows) ↔
      ((tried draw rows codes 0).isSome → Fresh codes (firstDrawn draw rows 0)) := by
  refine imp_congr_right fun _ => ?_
  obtain ⟨hok, herror⟩ := @insertItems_eq violation draw rows codes 0
  constructor
  · rintro ⟨new, hnew, -, -⟩
    by_contra hfresh
    have := herror hfresh
    unfold inTransaction at hnew
    split at hnew <;> simp_all
  · intro hfresh
    refine ⟨firstDrawn draw rows 0, ?_, by simp [firstDrawn], hfresh⟩
    rw [inTransaction, hok hfresh]

variable {year : ℕ}

theorem projectSequence_generated (hyear : (toString year).length = 4) (n : ℕ) :
    projectSequence year (projectReferenceCode year n) = some n := by
  have hlist : (projectReferenceCode year n).toList = ("PRJ-" ++ toString year ++ "-").toList ++
      (padZeros 4 n).toList := by
    rw [projectReferenceCode, String.toList_append]
  have hlength : ("PRJ-" ++ toString year ++ "-").toList.length = 9 := by
    simp only [String.toList_append, List.length_append, String.length_toList, hyear]
    rfl
  have hvalue : Nat.ofDigitChars 10 (padZeros 4 n).toList 0 = n := by
    rw [padZeros, String.toList_ofList, value_of_padded]
  have hdigits : (padZeros 4 n).toList.all Char.isDigit = true := by
    rw [padZeros, String.toList_ofList]
    exact List.all_eq_true.2 fun c hc => isDigit_of_mem_padded hc
  have hsome : (padZeros 4 n).toList ≠ [] := by
    rw [padZeros, String.toList_ofList]
    simp
  unfold projectSequence
  dsimp only
  rw [hlist, List.drop_left, if_pos ⟨List.prefix_append _ _, hlength, hsome, hdigits⟩, hvalue]

theorem generated_unused (hyear : (toString year).length = 4) (codes : List String) :
    projectReferenceCode year ((codes.filterMap (projectSequence year)).foldl max 0 + 1) ∉
      codes := by
  intro hmem
  have hsequence := List.mem_filterMap.2 ⟨_, hmem, projectSequence_generated hyear _⟩
  have := (ScaledDecimal.le_foldl_max (codes.filterMap (projectSequence year)) 0).2 _ hsequence
  omega

theorem createProject_iff (hyear : (toString year).length = 4) (codes : List String) :
    (∃ code, createProject violation none year codes = (.ok code, codes ++ [code]) ∧ code ∉ codes) ↔
      ∀ code ∈ codes, ∀ n ∈ projectSequence year code, n < 2 ^ 31 := by
  have hunused := generated_unused hyear codes
  have hcast : (codes.filterMap (projectSequence year)).any (2 ^ 31 ≤ ·) = false ↔
      ∀ code ∈ codes, ∀ n ∈ projectSequence year code, n < 2 ^ 31 := by
    simp only [List.any_eq_false, List.mem_filterMap, decide_eq_true_eq, not_le]
    exact ⟨fun h code hcode n hn => h n ⟨code, hcode, hn⟩,
      fun h n ⟨code, hcode, hn⟩ => h code hcode n hn⟩
  rw [← hcast]
  rcases hany : (codes.filterMap (projectSequence year)).any (2 ^ 31 ≤ ·) with _ | _
  · have hgenerated : generateReferenceCode codes year = .ok _ := if_neg (by rw [hany]; simp)
    refine iff_of_true ⟨_, ?_, hunused⟩ rfl
    simp [createProject, withCodeRetry, retryCode, hgenerated, insertCode, hunused]
  · have hgenerated : generateReferenceCode codes year = .error .integerOutOfRange := if_pos hany
    refine iff_of_false ?_ (by simp)
    rintro ⟨code, h, -⟩
    simp [createProject, withCodeRetry, retryCode, hgenerated] at h

theorem codes_never_fail_iff (violation : String → String) (draw : ℕ → String)
    (items : List String) (children : ℕ) (projects : List String) {year : ℕ}
    (hyear : (toString year).length = 4) :
    (NeverFails draw items 1 (createItem violation draw none items) ↔
      ((tried draw 1 items 0).isSome → Fresh items (firstDrawn draw 1 0))) ∧
    (NeverFails draw items children (partOut violation draw items children) ↔
      ((tried draw children items 0).isSome → Fresh items (firstDrawn draw children 0))) ∧
    (NeverFails draw items 1 (splitItem violation draw items) ↔
      ((tried draw 1 items 0).isSome → Fresh items (firstDrawn draw 1 0))) ∧
    ((∃ code, createProject violation none year projects = (.ok code, projects ++ [code]) ∧
        code ∉ projects) ↔
      ∀ code ∈ projects, ∀ n ∈ projectSequence year code, n < 2 ^ 31) :=
  ⟨neverFails_iff items 1, neverFails_iff items children, neverFails_iff items 1,
    createProject_iff hyear projects⟩

def duplicateKey (_code : String) : String :=
  "duplicate key value violates unique constraint"

def drawn (n : ℕ) : String := if n = 0 then "ITM-8F2K4" else "ITM-22222"

theorem second_code_fails :
    (tried drawn 1 ["ITM-8F2K4"] 0).isSome ∧
      createItem duplicateKey drawn none ["ITM-8F2K4"] = .error .transactionAborted ∧
      createProject duplicateKey none 2026 ["PRJ-2026-9999999999"] =
        (.error .integerOutOfRange, ["PRJ-2026-9999999999"]) := by
  decide

theorem typed_project_code_kept :
    ∃ code, createProject duplicateKey none 2026 ["PRJ-2026-41"] =
        (.ok code, ["PRJ-2026-41"] ++ [code]) ∧ code ∉ ["PRJ-2026-41"] :=
  (codes_never_fail_iff duplicateKey drawn [] 0 ["PRJ-2026-41"] (by decide)).2.2.2.2 (by decide)

end Loxep.CodeRetry
