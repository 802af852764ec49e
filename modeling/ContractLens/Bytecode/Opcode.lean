import ContractLens.Number.Decimal
import ContractLens.Table
/-!
# Opcodes

The instructions of the machine that contracts run on, by the byte that encodes them. Code is looked
at byte by byte, the data of a push as well: what is counted is where an instruction could stand, so
a count is never too low.
-/

namespace ContractLens.Opcode

/-- The bytes that encode a single instruction each. -/
def named : List (Nat × String) := [
  (0x00, "STOP"), (0x01, "ADD"), (0x02, "MUL"), (0x03, "SUB"), (0x04, "DIV"), (0x05, "SDIV"),
  (0x06, "MOD"), (0x07, "SMOD"), (0x08, "ADDMOD"), (0x09, "MULMOD"), (0x0A, "EXP"),
  (0x0B, "SIGNEXTEND"), (0x10, "LT"), (0x11, "GT"), (0x12, "SLT"), (0x13, "SGT"), (0x14, "EQ"),
  (0x15, "ISZERO"), (0x16, "AND"), (0x17, "OR"), (0x18, "XOR"), (0x19, "NOT"), (0x1A, "BYTE"),
  (0x1B, "SHL"), (0x1C, "SHR"), (0x1D, "SAR"), (0x20, "SHA3"), (0x30, "ADDRESS"),
  (0x31, "BALANCE"), (0x32, "ORIGIN"), (0x33, "CALLER"), (0x34, "CALLVALUE"),
  (0x35, "CALLDATALOAD"), (0x36, "CALLDATASIZE"), (0x37, "CALLDATACOPY"), (0x38, "CODESIZE"),
  (0x39, "CODECOPY"), (0x3A, "GASPRICE"), (0x3B, "EXTCODESIZE"), (0x3C, "EXTCODECOPY"),
  (0x3D, "RETURNDATASIZE"), (0x3E, "RETURNDATACOPY"), (0x3F, "EXTCODEHASH"), (0x40, "BLOCKHASH"),
  (0x41, "COINBASE"), (0x42, "TIMESTAMP"), (0x43, "NUMBER"), (0x44, "PREVRANDAO"),
  (0x45, "GASLIMIT"), (0x46, "CHAINID"), (0x47, "SELFBALANCE"), (0x48, "BASEFEE"),
  (0x49, "BLOBHASH"), (0x4A, "BLOBBASEFEE"), (0x50, "POP"), (0x51, "MLOAD"), (0x52, "MSTORE"),
  (0x53, "MSTORE8"), (0x54, "SLOAD"), (0x55, "SSTORE"), (0x56, "JUMP"), (0x57, "JUMPI"),
  (0x58, "PC"), (0x59, "MSIZE"), (0x5A, "GAS"), (0x5B, "JUMPDEST"), (0x5C, "TLOAD"),
  (0x5D, "TSTORE"), (0x5E, "MCOPY"), (0x5F, "PUSH0"), (0xF0, "CREATE"), (0xF1, "CALL"),
  (0xF2, "CALLCODE"), (0xF3, "RETURN"), (0xF4, "DELEGATECALL"), (0xF5, "CREATE2"),
  (0xFA, "STATICCALL"), (0xFD, "REVERT"), (0xFE, "INVALID"), (0xFF, "SELFDESTRUCT")]

/-- The families of instructions numbered in a row: first and last byte, name and first number. -/
def families : List (Nat × Nat × String × Nat) := [
  (0x60, 0x7F, "PUSH", 1), (0x80, 0x8F, "DUP", 1), (0x90, 0x9F, "SWAP", 1), (0xA0, 0xA4, "LOG", 0)]

/-- The name of the instruction that a byte encodes. -/
def mnemonic? (byte : Nat) : Option String :=
  match named.find? (·.1 == byte) with
  | some (_, name) => some name
  | none => (families.find? fun (first, last, _) => first ≤ byte && byte ≤ last).map
    fun (first, _, name, number) => name ++ natText (byte - first + number)

/-- The value of a small base sixteen digit. -/
def digit? (c : Char) : Option Nat :=
  if '0' ≤ c && c ≤ '9' then some (c.toNat - 48)
  else if 'a' ≤ c && c ≤ 'f' then some (c.toNat - 87)
  else none

/-- The byte written by two small base sixteen digits. -/
def byte? (high low : Char) : Option Nat := do
  let high ← digit? high
  let low ← digit? low
  return high * 16 + low

/-- The instructions at the byte positions of a code text; a pair that is no byte, or no
instruction, has none. -/
def all : List Char → List String
  | high :: low :: rest =>
    match (byte? high low).bind mnemonic? with
    | some name => name :: all rest
    | none => all rest
  | _ => []

/-- How often each name occurs, in the order of first occurrence. -/
def tally (names : List String) : Table Int :=
  names.foldl (fun counts name => counts.insert name ((counts.get? name).getD 0 + 1)) []

/-- How often each instruction occurs in a code text. -/
def count (code : List Char) : Table Int := tally (all code)

end ContractLens.Opcode
