import Mathlib.Data.List.Basic
import ScriptedChat.Text.Numeral

/-!
# Decimal notation

A natural number is written with digits alone, and its digits denote it again.

* `isDigit_of_mem_decimal` — digits alone;
* `digitsValue_decimal` — no two numbers are written alike;
* `decimal_append_inj` — a number ends where its digits do, so that one can be
  read before a text.
-/

namespace ScriptedChat.Text

theorem isDigit_digitChar : ∀ d < 10, isDigit (digitChar d) = true := by
  decide

theorem digitValue_digitChar : ∀ d < 10, digitValue (digitChar d) = d := by
  decide

theorem decimal_of_lt {n : Nat} (h : n < 10) : decimal n = [digitChar n] := by
  rw [decimal, if_pos h]

theorem decimal_of_le {n : Nat} (h : 10 ≤ n) :
    decimal n = decimal (n / 10) ++ [digitChar (n % 10)] := by
  rw [decimal, if_neg (by omega)]

theorem decimal_ne_nil (n : Nat) : decimal n ≠ [] := by
  by_cases h : n < 10
  · rw [decimal_of_lt h]
    exact List.cons_ne_nil _ _
  · rw [decimal_of_le (by omega)]
    exact List.append_ne_nil_of_right_ne_nil _ (List.cons_ne_nil _ _)

theorem isDigit_of_mem_decimal (n : Nat) : ∀ c ∈ decimal n, isDigit c = true := by
  induction n using Nat.strongRecOn with
  | ind n ih =>
    intro c hc
    by_cases h : n < 10
    · rw [decimal_of_lt h] at hc
      rw [List.mem_singleton.1 hc]
      exact isDigit_digitChar n h
    · rw [decimal_of_le (by omega)] at hc
      rcases List.mem_append.1 hc with hc | hc
      · exact ih (n / 10) (by omega) c hc
      · rw [List.mem_singleton.1 hc]
        exact isDigit_digitChar (n % 10) (by omega)

/-- A character that is no digit does not stand in a number. -/
theorem not_mem_decimal {c : Char} (h : isDigit c = false) (n : Nat) : c ∉ decimal n := by
  intro hc
  rw [isDigit_of_mem_decimal n c hc] at h
  exact absurd h nofun

theorem digitsValue_append (digits : List Char) (d : Char) :
    digitsValue (digits ++ [d]) = 10 * digitsValue digits + digitValue d := by
  rw [digitsValue, List.foldl_append]
  rfl

/-- **The digits of a number denote it.** -/
theorem digitsValue_decimal (n : Nat) : digitsValue (decimal n) = n := by
  induction n using Nat.strongRecOn with
  | ind n ih =>
    by_cases h : n < 10
    · rw [decimal_of_lt h, digitsValue, List.foldl_cons, List.foldl_nil, digitValue_digitChar n h]
      omega
    · rw [decimal_of_le (by omega), digitsValue_append, ih (n / 10) (by omega),
        digitValue_digitChar (n % 10) (by omega)]
      omega

theorem decimal_injective {m n : Nat} (h : decimal m = decimal n) : m = n := by
  rw [← digitsValue_decimal m, h, digitsValue_decimal]

/-- **Numbers are a prefix code**, once a character that is no digit ends them. -/
theorem decimal_append_inj {c : Char} (hc : isDigit c = false) {m n : Nat} {s t : List Char}
    (h : decimal m ++ c :: s = decimal n ++ c :: t) : m = n ∧ s = t := by
  have hdigits (k : Nat) (rest : List Char) :
      (decimal k ++ c :: rest).takeWhile isDigit = decimal k := by
    rw [List.takeWhile_append_of_pos (isDigit_of_mem_decimal k),
      List.takeWhile_cons_of_neg (by rw [hc]; exact nofun), List.append_nil]
  have hmn : m = n := by
    apply decimal_injective
    rw [← hdigits m s, h, hdigits n t]
  subst hmn
  exact ⟨rfl, List.tail_eq_of_cons_eq (List.append_cancel_left h)⟩

theorem toList_natText (n : Nat) : (natText n).toList = decimal n :=
  String.toList_ofList

end ScriptedChat.Text
