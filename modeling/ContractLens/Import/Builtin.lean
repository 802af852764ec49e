import ContractLens.Table
/-!
# The built-in library

The bodies of widely used contracts, by the paths they are imported under.
-/

namespace ContractLens.Library

/-- A text of lines, each ended. -/
def ofLines (lines : List String) : String := String.join (lines.map (· ++ "\n"))

/-- Access for a single owner. -/
def ownable : String := ofLines [
  "// SPDX-License-Identifier: MIT",
  "pragma solidity ^0.8.0;",
  "",
  "abstract contract Ownable \x7b",
  "    address private _owner;",
  "",
  "    event OwnershipTransferred(address indexed previousOwner, address indexed newOwner);",
  "",
  "    constructor() \x7b",
  "        _transferOwnership(msg.sender);",
  "    \x7d",
  "",
  "    function owner() public view virtual returns (address) \x7b",
  "        return _owner;",
  "    \x7d",
  "",
  "    modifier onlyOwner() \x7b",
  "        require(owner() == msg.sender, \"Ownable: caller is not the owner\");",
  "        _;",
  "    \x7d",
  "",
  "    function renounceOwnership() public virtual onlyOwner \x7b",
  "        _transferOwnership(address(0));",
  "    \x7d",
  "",
  "    function transferOwnership(address newOwner) public virtual onlyOwner \x7b",
  "        require(newOwner != address(0), \"Ownable: new owner is the zero address\");",
  "        _transferOwnership(newOwner);",
  "    \x7d",
  "",
  "    function _transferOwnership(address newOwner) internal virtual \x7b",
  "        address oldOwner = _owner;",
  "        _owner = newOwner;",
  "        emit OwnershipTransferred(oldOwner, newOwner);",
  "    \x7d",
  "\x7d"]

/-- A guard against calls made while one is running. -/
def reentrancyGuard : String := ofLines [
  "// SPDX-License-Identifier: MIT",
  "pragma solidity ^0.8.0;",
  "",
  "abstract contract ReentrancyGuard \x7b",
  "    uint256 private constant _NOT_ENTERED = 1;",
  "    uint256 private constant _ENTERED = 2;",
  "    uint256 private _status;",
  "",
  "    constructor() \x7b",
  "        _status = _NOT_ENTERED;",
  "    \x7d",
  "",
  "    modifier nonReentrant() \x7b",
  "        require(_status != _ENTERED, \"ReentrancyGuard: reentrant call\");",
  "        _status = _ENTERED;",
  "        _;",
  "        _status = _NOT_ENTERED;",
  "    \x7d",
  "\x7d"]

/-- A switch that stops a contract. -/
def pausable : String := ofLines [
  "// SPDX-License-Identifier: MIT",
  "pragma solidity ^0.8.0;",
  "",
  "import \"../utils/Context.sol\";",
  "",
  "abstract contract Pausable is Context \x7b",
  "    bool private _paused;",
  "",
  "    event Paused(address account);",
  "    event Unpaused(address account);",
  "",
  "    constructor() \x7b",
  "        _paused = false;",
  "    \x7d",
  "",
  "    function paused() public view virtual returns (bool) \x7b",
  "        return _paused;",
  "    \x7d",
  "",
  "    modifier whenNotPaused() \x7b",
  "        require(!paused(), \"Pausable: paused\");",
  "        _;",
  "    \x7d",
  "",
  "    modifier whenPaused() \x7b",
  "        require(paused(), \"Pausable: not paused\");",
  "        _;",
  "    \x7d",
  "",
  "    function _pause() internal virtual whenNotPaused \x7b",
  "        _paused = true;",
  "        emit Paused(_msgSender());",
  "    \x7d",
  "",
  "    function _unpause() internal virtual whenPaused \x7b",
  "        _paused = false;",
  "        emit Unpaused(_msgSender());",
  "    \x7d",
  "\x7d"]

/-- Who calls, and with what. -/
def context : String := ofLines [
  "// SPDX-License-Identifier: MIT",
  "pragma solidity ^0.8.0;",
  "",
  "abstract contract Context \x7b",
  "    function _msgSender() internal view virtual returns (address) \x7b",
  "        return msg.sender;",
  "    \x7d",
  "",
  "    function _msgData() internal view virtual returns (bytes calldata) \x7b",
  "        return msg.data;",
  "    \x7d",
  "\x7d"]

/-- The built-in bodies by import path. -/
def builtin : Table String := [
  ("@openzeppelin/contracts/access/Ownable.sol", ownable),
  ("@openzeppelin/contracts/security/ReentrancyGuard.sol", reentrancyGuard),
  ("@openzeppelin/contracts/utils/ReentrancyGuard.sol", reentrancyGuard),
  ("@openzeppelin/contracts/security/Pausable.sol", pausable),
  ("@openzeppelin/contracts/utils/Pausable.sol", pausable),
  ("@openzeppelin/contracts/utils/Context.sol", context)]

end ContractLens.Library
