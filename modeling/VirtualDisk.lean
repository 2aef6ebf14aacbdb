import VirtualDisk.Machinery.Transition
import VirtualDisk.Machinery.Ledger
import VirtualDisk.Driver.Ownership
import VirtualDisk.Driver.Conservation
import VirtualDisk.Driver.Children
import VirtualDisk.Service.Limits
import VirtualDisk.Driver.Regular
import VirtualDisk.Driver.Wakeup
import VirtualDisk.Service.Server
import VirtualDisk.Service.Serves
import VirtualDisk.Service.Replies
import VirtualDisk.Service.Registration
import VirtualDisk.Service.Agreement
import VirtualDisk.Service.Calls
import VirtualDisk.Service.Tokens
import VirtualDisk.Service.Correspondence
import VirtualDisk.Driver.Deletion
import VirtualDisk.Driver.Serials
import VirtualDisk.Driver.Relations
import VirtualDisk.Driver.Lookups
import VirtualDisk.Driver.Rendezvous
import VirtualDisk.Driver.Drain
import VirtualDisk.Driver.Dispatch
import VirtualDisk.Driver.Ioctl
import VirtualDisk.Driver.Completion
import VirtualDisk.Driver.Resources
import VirtualDisk.Machinery.Path
import VirtualDisk.Driver.Traversal
import VirtualDisk.Driver.ListUses
import VirtualDisk.Machinery.Tally
import VirtualDisk.Driver.Balance
import VirtualDisk.Driver.Parents
import VirtualDisk.Service.Uses
import VirtualDisk.Service.AddDisk
import VirtualDisk.Service.Plugins
import VirtualDisk.Service.RpcStatus
import VirtualDisk.Service.Shutdown
import VirtualDisk.Machinery.BlockArray
import VirtualDisk.Machinery.Trace
import VirtualDisk.Driver.HandOut
import VirtualDisk.Driver.Fifo
import VirtualDisk.Service.Faultless
import VirtualDisk.Service.Executions
import VirtualDisk.Service.Contents
import VirtualDisk.Service.Refinement
import VirtualDisk.Service.Transfer
import VirtualDisk.Service.FileStorage
import VirtualDisk.Machinery.Numeral
import VirtualDisk.Driver.Identity
import VirtualDisk.Machinery.Ring
import VirtualDisk.Driver.CancelSafe
import VirtualDisk.Setup.CustomActions
import VirtualDisk.Machinery.Imports
import VirtualDisk.Service.VmdkPlugin
import VirtualDisk.Machinery.Progress
import VirtualDisk.Driver.Progress
import VirtualDisk.Driver.Quiescence
import VirtualDisk.Driver.Waiting
import VirtualDisk.Driver.Returning
import VirtualDisk.Driver.Custody
import VirtualDisk.Service.Turns
import VirtualDisk.Service.Liveness
import VirtualDisk.Machinery.Script
import VirtualDisk.Driver.Disposition
import VirtualDisk.Driver.Synchronous
import VirtualDisk.Driver.BusLife
import VirtualDisk.Driver.BusRequests
import VirtualDisk.Service.Retirement
import VirtualDisk.Service.Control
import VirtualDisk.Service.SharedBuffer
