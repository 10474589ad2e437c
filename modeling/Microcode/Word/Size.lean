namespace Microcode

/-!
The measurements of a control word.
-/

abbrev wordBits : Nat := 56

/-- The last bit of a word only marks its end. -/
abbrev meaningfulBits : Nat := 55

abbrev addressBits : Nat := 12

end Microcode
