namespace DatabaseOperator

/-- First and last code of each run of characters with the Unicode property White_Space. -/
def blankCodes : List (Nat × Nat) :=
  [(0x9, 0xd), (0x20, 0x20), (0x85, 0x85), (0xa0, 0xa0), (0x1680, 0x1680), (0x2000, 0x200a),
    (0x2028, 0x2029), (0x202f, 0x202f), (0x205f, 0x205f), (0x3000, 0x3000)]

def isBlank (c : Char) : Bool :=
  blankCodes.any fun r => r.1 ≤ c.toNat && c.toNat ≤ r.2

def skipBlanks (cs : List Char) : List Char :=
  cs.dropWhile isBlank

end DatabaseOperator
