import LedgerSandbox.Wasm.Instruction
import LedgerSandbox.Wasm.Reader

/-!
# The binary format of code

Instructions are read one after the other; the marks that open and close blocks
are put together to the tree that `Instr` is (`readCode`).

These are the instructions of version 2.0 of the format, without those on vectors,
which stand behind the byte `0xFD`. What later versions add is left out too: calls in
tail position (`0x12`, `0x13`), exceptions, atomic accesses (`0xFE`), and references
to typed functions or to structured data (`0xFB`). The bytes of what is left out are
refused as unknown (`Fault.unknownByte`), and the module with them. Vectors can still
be declared, passed on and kept in variables; nothing computes with them.
-/

namespace LedgerSandbox.Wasm

open Reader

/-- The type that a byte stands for. -/
def ValType.ofByte? : UInt8 → Option ValType
  | 0x7F => some .i32
  | 0x7E => some .i64
  | 0x7D => some .f32
  | 0x7C => some .f64
  | 0x7B => some .v128
  | 0x70 => some .funcref
  | 0x6F => some .externref
  | _ => none

/-- A value type. -/
def readValType : Reader ValType := do
  let b ← byte
  match ValType.ofByte? b with
  | some type => return type
  | none => throw (.unknownByte b)

/-- The type of references. -/
def readRefType : Reader ValType := do
  let type ← readValType
  if type.isReference then return type else throw .typeMismatch

/-- The type of a block: none, that of a single result, or a declared one. -/
def readBlockType (types : Array FuncType) : Reader FuncType := do
  let b ← peek
  if b = 0x40 then
    let _ ← byte
    return ⟨[], []⟩
  else match ValType.ofByte? b with
    | some type =>
      let _ ← byte
      return ⟨[], [type]⟩
    | none =>
      let index ← s33
      if index < 0 then throw (.unknownByte b) else itemAt types index.toNat

/-- The alignment and offset of a memory access. -/
def readMemArg : Reader MemArg := do
  let align ← u32
  if 32 ≤ align then throw .badAlignment
  return ⟨align, ← u32⟩

/-- The place of the only memory, always zero. -/
def readMemoryIndex : Reader Unit := do
  let b ← byte
  if b ≠ 0 then throw (.unknownByte b)

/-- What the loads read, by opcode from `0x28` on. -/
def loadLayouts : Array Layout := #[
  ⟨.i32, 4, false⟩, ⟨.i64, 8, false⟩, ⟨.f32, 4, false⟩, ⟨.f64, 8, false⟩, ⟨.i32, 1, true⟩,
  ⟨.i32, 1, false⟩, ⟨.i32, 2, true⟩, ⟨.i32, 2, false⟩, ⟨.i64, 1, true⟩, ⟨.i64, 1, false⟩,
  ⟨.i64, 2, true⟩, ⟨.i64, 2, false⟩, ⟨.i64, 4, true⟩, ⟨.i64, 4, false⟩]

/-- What the stores write, by opcode from `0x36` on. -/
def storeLayouts : Array Layout := #[
  ⟨.i32, 4, false⟩, ⟨.i64, 8, false⟩, ⟨.f32, 4, false⟩, ⟨.f64, 8, false⟩, ⟨.i32, 1, false⟩,
  ⟨.i32, 2, false⟩, ⟨.i64, 1, false⟩, ⟨.i64, 2, false⟩, ⟨.i64, 4, false⟩]

/-- The comparisons of integers, in the order of their opcodes. -/
def intCompares : List IntCompare := [.eq, .ne, .ltS, .ltU, .gtS, .gtU, .leS, .leU, .geS, .geU]

/-- The comparisons of floating-point numbers, in the order of their opcodes. -/
def floatCompares : List FloatCompare := [.eq, .ne, .lt, .gt, .le, .ge]

/-- The operations on integers of one width, in the order of their opcodes. -/
def intOperations (w : Width) : List Instr :=
  [IntUnary.clz, .ctz, .popcnt].map (fun op => .unary (.int w op)) ++
  [IntBinary.add, .sub, .mul, .divS, .divU, .remS, .remU, .and, .or, .xor, .shl, .shrS, .shrU,
    .rotl, .rotr].map (fun op => .binary (.int w op))

/-- The operations on floating-point numbers of one width, in the order of their
opcodes. -/
def floatOperations (w : Width) : List Instr :=
  [FloatUnary.abs, .neg, .ceil, .floor, .trunc, .nearest, .sqrt].map
    (fun op => .unary (.float w op)) ++
  [FloatBinary.add, .sub, .mul, .div, .min, .max, .copysign].map (fun op => .binary (.float w op))

/-- The tests of integers of one width, in the order of their opcodes. -/
def intTests (w : Width) : List Instr :=
  .unary (.eqz w) :: intCompares.map fun op => .binary (.intCompare w op)

/-- The tests of floating-point numbers of one width, in the order of their opcodes. -/
def floatTests (w : Width) : List Instr := floatCompares.map fun op => .binary (.floatCompare w op)

/-- The truncations to integers of one width, in the order of their opcodes. -/
def truncations (target : Width) (saturate : Bool) : List Unary :=
  [.truncate .w32 target true saturate, .truncate .w32 target false saturate,
   .truncate .w64 target true saturate, .truncate .w64 target false saturate]

/-- The conversions to floating-point numbers of one width, in the order of their
opcodes. -/
def conversions (target : Width) : List Unary :=
  [.convert .w32 target true, .convert .w32 target false,
   .convert .w64 target true, .convert .w64 target false]

/-- The operations that change the type of a number, in the order of their opcodes. -/
def changesOfType : List Unary :=
  .wrap :: truncations .w32 false ++ [.extend true, .extend false] ++ truncations .w64 false ++
  conversions .w32 ++ [.demote] ++ conversions .w64 ++
  [.promote, .bitsOfFloat .w32, .bitsOfFloat .w64, .floatOfBits .w32, .floatOfBits .w64]

/-- The operations that extend the low bits of an integer, in the order of their
opcodes. -/
def signExtensions : List Unary :=
  [.int .w32 (.extendLow 8), .int .w32 (.extendLow 16), .int .w64 (.extendLow 8),
   .int .w64 (.extendLow 16), .int .w64 (.extendLow 32)]

/-- The arithmetic instructions, by opcode from `0x45` on. -/
def numericInstrs : Array Instr :=
  (intTests .w32 ++ intTests .w64 ++ floatTests .w32 ++ floatTests .w64 ++
   intOperations .w32 ++ intOperations .w64 ++ floatOperations .w32 ++ floatOperations .w64 ++
   changesOfType.map Instr.unary ++ signExtensions.map Instr.unary).toArray

/-- The truncations that saturate, by the number after `0xFC`. -/
def saturatingTruncations : Array Unary :=
  (truncations .w32 true ++ truncations .w64 true).toArray

/-- The bits of a little-endian number. -/
def wordOfBytes (b : Bytes) : Nat := b.foldr (fun x n => x.toNat + 256 * n) 0

/-- A block that has been opened, with what is known of it. -/
inductive Opening where
  | block (type : FuncType)
  | loop (type : FuncType)
  | ifThen (type : FuncType)
  | ifElse (type : FuncType) (yes : Code)

namespace Opening

/-- The finished block, given the code after the last mark. -/
def finish (code : Code) : Opening → Instr
  | block type => .block type code
  | loop type => .loop type code
  | ifThen type => .ifElse type code []
  | ifElse type yes => .ifElse type yes code

end Opening

/-- What is read in one piece: an instruction, or a mark of a block. -/
inductive Token where
  | instr (i : Instr)
  | opening (o : Opening)
  | otherwise
  | closing

/-- The instruction after the byte `0xFC`. -/
def readExtended : Reader Instr := do
  let opcode ← u32
  match opcode with
  | 8 =>
    let segment ← u32
    readMemoryIndex
    return .memoryInit segment
  | 9 => return .dataDrop (← u32)
  | 10 =>
    readMemoryIndex
    readMemoryIndex
    return .memoryCopy
  | 11 =>
    readMemoryIndex
    return .memoryFill
  | 12 =>
    let segment ← u32
    return .tableInit segment (← u32)
  | 13 => return .elemDrop (← u32)
  | 14 =>
    let target ← u32
    return .tableCopy target (← u32)
  | 15 => return .tableGrow (← u32)
  | 16 => return .tableSize (← u32)
  | 17 => return .tableFill (← u32)
  | _ =>
    match saturatingTruncations[opcode]? with
    | some op => return .unary op
    | none => throw (.unknownByte 0xFC)

/-- An instruction without a block, by its opcode. -/
def readPlain (types : Array FuncType) (opcode : UInt8) : Reader Instr := do
  match opcode with
  | 0x00 => return .unreachable
  | 0x01 => return .nop
  | 0x0C => return .br (← u32)
  | 0x0D => return .brIf (← u32)
  | 0x0E =>
    let depths ← many u32
    return .brTable depths (← u32)
  | 0x0F => return .ret
  | 0x10 => return .call (← u32)
  | 0x11 =>
    let type ← itemAt types (← u32)
    return .callIndirect type (← u32)
  | 0x1A => return .drop
  | 0x1B => return .select
  | 0x1C => return .selectOf (← many readValType)
  | 0x20 => return .localGet (← u32)
  | 0x21 => return .localSet (← u32)
  | 0x22 => return .localTee (← u32)
  | 0x23 => return .globalGet (← u32)
  | 0x24 => return .globalSet (← u32)
  | 0x25 => return .tableGet (← u32)
  | 0x26 => return .tableSet (← u32)
  | 0x3F =>
    readMemoryIndex
    return .memorySize
  | 0x40 =>
    readMemoryIndex
    return .memoryGrow
  | 0x41 => return .const (.i32 (UInt32.ofInt (← s32)))
  | 0x42 => return .const (.i64 (UInt64.ofInt (← s64)))
  | 0x43 => return .const (.f32 (UInt32.ofNat (wordOfBytes (← bytes 4))))
  | 0x44 => return .const (.f64 (UInt64.ofNat (wordOfBytes (← bytes 8))))
  | 0xD0 => return .refNull (← readRefType)
  | 0xD1 => return .refIsNull
  | 0xD2 => return .refFunc (← u32)
  | 0xFC => readExtended
  | _ =>
    let n := opcode.toNat
    if 0x28 ≤ n ∧ n < 0x36 then
      return .load (← itemAt loadLayouts (n - 0x28)) (← readMemArg)
    else if 0x36 ≤ n ∧ n < 0x3F then
      return .store (← itemAt storeLayouts (n - 0x36)) (← readMemArg)
    else if 0x45 ≤ n then
      match numericInstrs[n - 0x45]? with
      | some i => return i
      | none => throw (.unknownByte opcode)
    else throw (.unknownByte opcode)

/-- The next instruction or mark. -/
def readToken (types : Array FuncType) : Reader Token := do
  match ← byte with
  | 0x02 => return .opening (.block (← readBlockType types))
  | 0x03 => return .opening (.loop (← readBlockType types))
  | 0x04 => return .opening (.ifThen (← readBlockType types))
  | 0x05 => return .otherwise
  | 0x0B => return .closing
  | opcode => return .instr (← readPlain types opcode)

/-- Reads code up to the mark that closes it. `opened` are the blocks around the place
that is read, innermost first, each with the code in front of it (last instruction
first), and `done` is the code since the last mark. Every token takes a byte at least,
which bounds their number. -/
def readCodeFrom (types : Array FuncType) :
    (budget : Nat) → (opened : List (Opening × Code)) → (done : Code) → Reader Code
  | 0, _, _ => throw .unexpectedEnd
  | budget + 1, opened, done => do
    match ← readToken types with
    | .instr i => readCodeFrom types budget opened (i :: done)
    | .opening o => readCodeFrom types budget ((o, done) :: opened) []
    | .otherwise =>
      match opened with
      | (.ifThen type, before) :: rest =>
        readCodeFrom types budget ((.ifElse type done.reverse, before) :: rest) []
      | _ => throw (.unknownByte 0x05)
    | .closing =>
      match opened with
      | [] => return done.reverse
      | (o, before) :: rest =>
        readCodeFrom types budget rest (o.finish done.reverse :: before)

/-- Reads code up to the mark that closes it. -/
def readCode (types : Array FuncType) : Reader Code := do
  readCodeFrom types (← get).length [] []

end LedgerSandbox.Wasm
