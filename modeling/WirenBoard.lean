import WirenBoard.Core.Digits
import WirenBoard.Core.Run
import WirenBoard.Core.Shell
import WirenBoard.Core.Simulation
import WirenBoard.Core.Sort
import WirenBoard.Core.Subst
import WirenBoard.Models.Devenv.Entrypoint
import WirenBoard.Models.Devenv.TestingSets
import WirenBoard.Models.DirOrder.Encoding
import WirenBoard.Models.DirOrder.Isolation
import WirenBoard.Models.DirOrder.Passthrough
import WirenBoard.Models.DirOrder.SeedText
import WirenBoard.Models.DirOrder.Ties
import WirenBoard.Models.Image.Delivery
import WirenBoard.Models.Image.Downloads
import WirenBoard.Models.Install.Outcomes
import WirenBoard.Models.Rootfs.Cache
import WirenBoard.Models.Rootfs.Devenv
import WirenBoard.Models.Rootfs.Entries
import WirenBoard.Models.Rootfs.Tarballs
import WirenBoard.Models.Update.Forms
